import BootStore.Proofs.ImageFile
import BootStore.Proofs.Sharing

/-!
# Locks of a machine

A machine keeps the locks on a file as an operating system does (`Machine.flocks`), as long as the
names of the lock directory and the lock file lead to it.
-/
namespace BootStore

variable {directory : String} {k : Nat} {paths : List String}

namespace Machine

/-- The machine after bytes of a file may have changed, and nothing about its locks. -/
structure Rewritten (m m' : Machine) : Prop where
  files : m'.files = m.files ∨ ∃ n old new, m.files.nodes[n]? = some (Node.file old) ∧
    m'.files = m.files.setContents n new
  held : m'.held = m.held
  nextToken : m'.nextToken = m.nextToken

theorem perform_rewritten (m : Machine) {c : HostCall Nat DeviceFile}
    (hc : c.isDeviceCall = true) : Yields c.perform m fun _ m' => m.Rewritten m' := by
  have hsame : ∀ m' : Machine, m'.files = m.files → m'.held = m.held →
      m'.nextToken = m.nextToken → m.Rewritten m' :=
    fun m' hfiles hheld htoken => ⟨Or.inl hfiles, hheld, htoken⟩
  cases c with
  | makeDirectory path => cases hc
  | tryLock path exclusive => cases hc
  | unlock lock => cases hc
  | pathExists path => exact hsame _ rfl rfl rfl
  | readFront path limit =>
    show m.Rewritten (m.readFront path limit).2
    unfold readFront
    split <;> exact hsame _ rfl rfl rfl
  | writeFront path data =>
    simp only [Yields, HostCall.perform, Host.writeFront]
    split
    · exact hsame _ rfl rfl rfl
    · next files hfiles =>
      unfold FileTree.writeFront at hfiles
      split at hfiles
      · next n contents hnode =>
        cases hfiles
        exact ⟨Or.inr ⟨n, contents, _, FileTree.nodes_of_node hnode, rfl⟩, rfl, rfl⟩
      · split at hfiles
        · cases hfiles
        · cases hfiles
          exact hsame _ rfl rfl rfl
      · cases hfiles
  | openDevice path readOnly =>
    show m.Rewritten (m.openDevice path readOnly).2
    unfold Machine.openDevice
    split
    · exact hsame _ rfl rfl rfl
    · dsimp only
      split <;> exact hsame _ rfl rfl rfl
  | closeDevice file => exact hsame _ rfl rfl rfl
  | readDevice file offset length => exact hsame _ rfl rfl rfl
  | writeDevice file w =>
    show m.Rewritten (m.writeDevice file w).2
    unfold Machine.writeDevice
    -- five refusals, then by what the file is
    iterate 5
      split
      · exact hsame _ rfl rfl rfl
    dsimp only
    split
    · next contents hn => exact ⟨Or.inr ⟨file.file, contents, _, hn, rfl⟩, rfl, rfl⟩
    · split <;> exact hsame _ rfl rfl rfl
    · exact hsame _ rfl rfl rfl

/-- The lock file is there and so are these paths, and no lock has a token that is yet to come. -/
structure KeepsLock (directory : String) (k : Nat) (paths : List String) (m : Machine) : Prop where
  files : m.files.HasLock directory k
  there : ∀ path ∈ paths, (m.files.node path).toBool = true
  fresh : ∀ x ∈ m.held, x.token < m.nextToken

def locksOn (k : Nat) (m : Machine) : Set (Hold Nat) :=
  {x | ∃ l ∈ m.held, l.file = k ∧ x = ⟨l.token, l.exclusive⟩}

theorem KeepsLock.rewritten {m m' : Machine} (hm : m.KeepsLock directory k paths)
    (h : m.Rewritten m') : m'.KeepsLock directory k paths ∧ m'.locksOn k = m.locksOn k := by
  refine ⟨⟨?_, ?_, ?_⟩, ?_⟩
  · rcases h.files with hfiles | ⟨n, old, new, hn, hfiles⟩
    · rw [hfiles]
      exact hm.files
    · rw [hfiles]
      exact hm.files.setContents hn new
  · intro path hpath
    rcases h.files with hfiles | ⟨n, old, new, hn, hfiles⟩
    · rw [hfiles]
      exact hm.there path hpath
    · rw [hfiles, FileTree.toBool_node_setContents hn]
      exact hm.there path hpath
  · rw [h.held, h.nextToken]
    exact hm.fresh
  · unfold locksOn
    rw [h.held]

theorem compatible_iff (m : Machine) (k : Nat) (exclusive : Bool) :
    compatible m.held k exclusive = true ↔ Compatible (m.locksOn k) exclusive := by
  rw [compatible, List.all_eq_true]
  constructor
  · rintro h _ ⟨l, hl, hk, rfl⟩
    simpa [hk, and_comm] using h l hl
  · intro h l hl
    by_cases hk : l.file = k
    · simpa [hk, and_comm] using h _ ⟨l, hl, hk, rfl⟩
    · simp [hk]

theorem KeepsLock.makeDirectory {m : Machine} (hm : m.KeepsLock directory k paths) :
    (Host.makeDirectory directory : StateM Machine _) m = (.error .alreadyExists, m) := by
  simp only [Host.makeDirectory, hm.files.makeDirectory]

theorem KeepsLock.tryLock {m : Machine} (hm : m.KeepsLock directory k paths) (exclusive : Bool) :
    let lock : HeldLock := ⟨m.nextToken, k, exclusive⟩
    (Host.tryLock (Path.join directory StoreLock.fileName) exclusive : StateM Machine _) m =
      if compatible m.held k exclusive then
        (.ok (some lock.token),
          { m with held := m.held ++ [lock], nextToken := m.nextToken + 1 }.note (.locked lock))
      else (.ok none, m) := by
  obtain ⟨node, hopen⟩ := hm.files.openOrCreate
  simp only [Host.tryLock, Machine.tryLock, hopen]

/-- The locks of a machine are those of files that are opened anew for each. -/
theorem flocks (directory : String) (k : Nat) (paths : List String) :
    Host.Flocks directory (KeepsLock directory k paths) (locksOn k) where
  tryLock := by
    intro m hm exclusive
    rw [Yields, hm.tryLock exclusive]
    split
    · next hcompatible =>
      refine ⟨⟨hm.files, hm.there, ?_⟩, (compatible_iff m k exclusive).1 hcompatible, ?_, ?_⟩
      · intro x hx
        rcases List.mem_append.1 hx with hx | hx
        · exact Nat.lt_succ_of_lt (hm.fresh x hx)
        · rw [List.mem_singleton.1 hx]
          exact Nat.lt_succ_self _
      · rintro _ ⟨l, hl, -, rfl⟩
        exact Nat.ne_of_lt (hm.fresh l hl)
      · ext x
        constructor
        · rintro ⟨l, hl, hk, rfl⟩
          rcases List.mem_append.1 hl with hl | hl
          · exact Set.mem_insert_of_mem _ ⟨l, hl, hk, rfl⟩
          · rw [List.mem_singleton.1 hl]
            exact Set.mem_insert _ _
        · rintro (rfl | ⟨l, hl, hk, rfl⟩)
          · exact ⟨_, List.mem_append_right _ List.mem_cons_self, rfl, rfl⟩
          · exact ⟨l, List.mem_append_left _ hl, hk, rfl⟩
    · next hconflict =>
      rw [compatible_iff] at hconflict
      exact ⟨hm, hconflict, rfl⟩
  unlock := by
    intro m hm lock
    refine ⟨⟨hm.files, hm.there, fun x hx => hm.fresh x (List.mem_filter.1 hx).1⟩, ?_⟩
    ext x
    constructor
    · rintro ⟨l, hl, hk, rfl⟩
      obtain ⟨hl, hother⟩ := List.mem_filter.1 hl
      exact ⟨⟨l, hl, hk, rfl⟩, bne_iff_ne.1 hother⟩
    · rintro ⟨⟨l, hl, hk, rfl⟩, hother⟩
      exact ⟨l, List.mem_filter.2 ⟨hl, bne_iff_ne.2 hother⟩, hk, rfl⟩
  makeDirectory := by
    intro m hm
    rw [Yields, hm.makeDirectory]
    exact ⟨hm, rfl⟩
  device := by
    intro m hm c hc
    exact (m.perform_rewritten hc).imp fun _ _ h => hm.rewritten h

theorem leadsToLock {settings : Settings} {path : String} (hdevice : path ∈ settings.devices)
    (hpath : path ∈ paths) :
    Host.LeadsToLock settings (KeepsLock settings.lockDirectory k paths) where
  device := ⟨path, hdevice, fun hm => hm.there path hpath⟩
  directory := by
    intro m hm
    rw [Yields, hm.makeDirectory]
    rintro _ ⟨⟩
    rfl
  lockFile := by
    intro m hm exclusive
    rw [Yields, hm.tryLock exclusive]
    split
    · intro e he
      cases he
    · intro e he
      cases he

end Machine

end BootStore

import BootStore.Machine
import BootStore.Proofs.Hosting

/-!
# Image files

A store in an ordinary file of a machine. Writing to a file does not change where paths lead, so a
machine that holds the lock file serves runs on the image (`Machine.serves`).
-/
namespace BootStore

namespace FileTree

variable {t : FileTree} {p : Purpose} {links here next : Nat} {name : String} {d : Directory}

theorem walk_cons {rest : List String} {d' : Directory}
    (hhere : t.nodes[here]? = some (.directory d))
    (hname : (Path.isIdle name || name == "..") = false)
    (hentry : d.entries.lookup name = some next) (hnext : t.nodes[next]? = some (.directory d'))
    (hrest : rest ≠ []) (hslash : rest ≠ [""]) :
    t.walk p links here (name :: rest) = t.walk p links next rest := by
  have hlast : p.isLast rest = false := by
    cases p <;> simp [Purpose.isLast, hrest, hslash]
  rw [Bool.or_eq_false_iff, beq_eq_false_iff_ne] at hname
  rw [walk]
  simp only [hhere, hname, hentry, hnext, hlast, hslash, Bool.false_eq_true, if_false, and_false]

theorem walk_last {node : Node} (hhere : t.nodes[here]? = some (.directory d))
    (hname : (Path.isIdle name || name == "..") = false)
    (hentry : d.entries.lookup name = some next)
    (hnext : t.nodes[next]? = some node) (hlink : ∀ target, node ≠ .link target)
    (hjump : ∀ target, node ≠ .jump target) :
    t.walk p links here [name] = .ok ⟨here, name, some next⟩ := by
  have hlast : p.isLast [] = true := rfl
  rw [Bool.or_eq_false_iff, beq_eq_false_iff_ne] at hname
  rw [walk]
  cases node with
  | link target => exact absurd rfl (hlink target)
  | jump target => exact absurd rfl (hjump target)
  | _ => simp [hhere, hname, hentry, hnext, hlast]

/-- Where a path leads does not depend on what files hold. -/
theorem walk_congr {t u : FileTree}
    (h : ∀ i : Nat, u.nodes[i]? = t.nodes[i]? ∨
      ((∃ c, t.nodes[i]? = some (Node.file c)) ∧ ∃ c, u.nodes[i]? = some (Node.file c)))
    (p : Purpose) (links here : Nat) (names : List String) :
    u.walk p links here names = t.walk p links here names := by
  -- a walk looks into directories and links only, and these are the same in both trees
  fun_induction walk t p links here names <;> grind [walk]

variable {t : FileTree} {n : Nat} {old : Contents}

theorem nodes_setContents_self (hn : t.nodes[n]? = some (.file old)) (new : Contents) :
    (t.setContents n new).nodes[n]? = some (.file new) := by
  obtain ⟨hlt, -⟩ := List.getElem?_eq_some_iff.1 hn
  exact List.getElem?_set_self hlt

theorem nodes_setContents_ne {i : Nat} (hi : i ≠ n) (t : FileTree) (new : Contents) :
    (t.setContents n new).nodes[i]? = t.nodes[i]? :=
  List.getElem?_set_ne (Ne.symm hi)

theorem find_setContents (hn : t.nodes[n]? = some (.file old)) (new : Contents) (p : Purpose)
    (path : String) : (t.setContents n new).find p path = t.find p path := by
  have hwalk := walk_congr (t := t) (u := t.setContents n new) fun i => by
    by_cases hi : i = n
    · subst hi
      exact Or.inr ⟨⟨old, hn⟩, new, nodes_setContents_self hn new⟩
    · exact Or.inl (nodes_setContents_ne hi t new)
  unfold find
  rw [show (t.setContents n new).working = t.working from rfl]
  simp only [hwalk]

theorem toBool_node_setContents (hn : t.nodes[n]? = some (.file old)) (new : Contents)
    (path : String) : ((t.setContents n new).node path).toBool = (t.node path).toBool := by
  unfold FileTree.node
  rw [find_setContents hn]
  split
  · rfl
  · split
    · rfl
    · next place _ i _ =>
      by_cases hi : i = n
      · rw [hi, nodes_setContents_self hn, hn]
        rfl
      · rw [nodes_setContents_ne hi]

theorem nodes_of_node {path : String} {node : Node} (h : t.node path = .ok (n, node)) :
    t.nodes[n]? = some node := by
  unfold FileTree.node at h
  split at h
  · cases h
  · split at h
    · cases h
    · split at h
      · next hnode =>
        cases h
        exact hnode
      · cases h

/-- The names of a lock directory and a lock file lead to a directory and to a file. -/
structure HasLock (t : FileTree) (directory : String) (k : Nat) : Prop where
  lockDirectory : ∃ place, t.find .entry directory = .ok place ∧ place.node ≠ none
  lockFile : ∃ place, t.find .fill (Path.join directory StoreLock.fileName) = .ok place ∧
    place.node = some k
  isFile : ∃ c, t.nodes[k]? = some (.file c)

section HasLock

variable {directory : String} {k : Nat}

theorem HasLock.setContents (ht : t.HasLock directory k) (hn : t.nodes[n]? = some (.file old))
    (new : Contents) : (t.setContents n new).HasLock directory k := by
  refine ⟨?_, ?_, ?_⟩
  · rw [find_setContents hn]
    exact ht.lockDirectory
  · rw [find_setContents hn]
    exact ht.lockFile
  · by_cases hk : k = n
    · rw [hk]
      exact ⟨new, nodes_setContents_self hn new⟩
    · rw [nodes_setContents_ne hk]
      exact ht.isFile

theorem HasLock.makeDirectory (ht : t.HasLock directory k) :
    t.makeDirectory directory = .error .alreadyExists := by
  obtain ⟨place, hfind, hplace⟩ := ht.lockDirectory
  obtain ⟨i, hi⟩ := Option.ne_none_iff_exists'.1 hplace
  simp only [FileTree.makeDirectory, hfind, hi]

theorem HasLock.openOrCreate (ht : t.HasLock directory k) :
    ∃ node, t.openOrCreate (Path.join directory StoreLock.fileName) = .ok (k, node, t) := by
  obtain ⟨place, hfind, hplace⟩ := ht.lockFile
  obtain ⟨c, hk⟩ := ht.isFile
  exact ⟨.file c, by simp only [FileTree.openOrCreate, hfind, hplace, hk]⟩

end HasLock

/-- A path leads to a file in the tree, and so do the names of a lock directory and a lock file. -/
structure HasStore (t : FileTree) (settings : Settings) (path : String) (n k : Nat) : Prop
    extends HasLock t settings.lockDirectory k where
  image : ∃ old, t.nodes[n]? = some (.file old)
  found : ∃ place, t.find .reach path = .ok place ∧ place.node = some n

variable {settings : Settings} {path : String} {k : Nat}

theorem HasStore.setContents (ht : t.HasStore settings path n k) (new : Contents) :
    (t.setContents n new).HasStore settings path n k := by
  obtain ⟨old, hn⟩ := ht.image
  refine ⟨ht.toHasLock.setContents hn new, ⟨new, nodes_setContents_self hn new⟩, ?_⟩
  rw [find_setContents hn]
  exact ht.found

theorem HasStore.node (ht : t.HasStore settings path n k) {c : Contents}
    (hc : t.nodes[n]? = some (.file c)) : t.node path = .ok (n, .file c) := by
  obtain ⟨place, hfind, hplace⟩ := ht.found
  simp only [FileTree.node, hfind, hplace, hc]

end FileTree

namespace Machine

def Holds (settings : Settings) (path : String) (n k : Nat) (c : Bytes) (m : Machine) : Prop :=
  m.files.HasStore settings path n k ∧
    ∃ contents : Contents, m.files.nodes[n]? = some (.file contents) ∧ contents.toBytes = c

/-- The states of a machine at the stages of a run on an image, which may only read or may write
too. -/
def stands (readOnly : Bool) (settings : Settings) (path : String) (n k : Nat) :
    Stage Nat DeviceFile → Bytes → Machine → Prop
  | .idle, c, m => m.Holds settings path n k c ∧ ∀ x ∈ m.held, x.file ≠ k
  | .locked lock, c, m =>
    m.Holds settings path n k c ∧ ∀ x ∈ m.held, x.token ≠ lock → x.file ≠ k
  | .opened lock file, c, m =>
    (m.Holds settings path n k c ∧ ∀ x ∈ m.held, x.token ≠ lock → x.file ≠ k) ∧
      file = ⟨n, !readOnly⟩

variable {settings : Settings} {path : String} {n k : Nat} {c : Bytes} {m : Machine}

theorem stands_setContents {t : FileTree} (ht : t.HasStore settings path n k) (readOnly : Bool)
    (c : Bytes) : stands readOnly settings path n k .idle c { files := t.setContents n (.ofBytes c) } := by
  obtain ⟨old, hn⟩ := ht.image
  refine ⟨⟨ht.setContents _, .ofBytes c, ?_, Contents.toBytes_ofBytes c⟩, ?_⟩
  · exact FileTree.nodes_setContents_self hn _
  · intro x hx
    exact absurd hx List.not_mem_nil

theorem compatible_of_free (h : ∀ x ∈ m.held, x.file ≠ k) (exclusive : Bool) :
    compatible m.held k exclusive = true := by
  rw [compatible, List.all_eq_true]
  intro x hx
  rw [bne_iff_ne.2 (h x hx), Bool.true_or]

theorem hasOffsets_file {contents : Contents} (hn : m.files.nodes[n]? = some (.file contents))
    (writable : Bool) : m.hasOffsets ⟨n, writable⟩ = true := by
  simp only [hasOffsets, hn]

theorem readDevice_image {contents : Contents} (hn : m.files.nodes[n]? = some (.file contents))
    {offset length : Nat} (hlength : 0 < length) (hend : offset + length < fileOffsetBound)
    (writable : Bool) :
    (offset + length ≤ contents.toBytes.length ∧
      m.readDevice ⟨n, writable⟩ offset length =
        .ok (Bytes.slice contents.toBytes offset length)) ∨
    (contents.toBytes.length < offset + length ∧
      ∃ failure, m.readDevice ⟨n, writable⟩ offset length = .error failure) := by
  have hread : m.readDevice ⟨n, writable⟩ offset length =
      wholeRegion (Bytes.slice contents.toBytes offset length) length := by
    unfold readDevice
    rw [if_neg (by omega), if_neg (by omega), hasOffsets_file hn, if_neg (by decide),
      if_neg (by omega)]
    simp only [hn, Contents.slice_eq]
  have hslice := Bytes.length_slice contents.toBytes offset length
  rw [hread, wholeRegion]
  by_cases hfits : offset + length ≤ contents.toBytes.length
  · rw [if_neg (by omega)]
    exact Or.inl ⟨hfits, rfl⟩
  · rw [if_pos (by omega)]
    exact Or.inr ⟨by omega, _, rfl⟩

theorem writeDevice_image {contents : Contents} (hn : m.files.nodes[n]? = some (.file contents))
    {w : Write} (hdata : 0 < w.data.length) (hend : w.offset + w.data.length < fileOffsetBound) :
    m.writeDevice ⟨n, true⟩ w = (.ok (),
      { m.note (.written ⟨n, true⟩ w.offset w.data.length) with
        files := m.files.setContents n (contents.overwrite w.offset w.data) }) := by
  have hqueue : m.isQueue ⟨n, true⟩ = false := by simp only [isQueue, hn]
  have hempty : w.data.isEmpty = false := by
    rw [List.isEmpty_eq_false_iff]
    exact List.ne_nil_of_length_pos hdata
  unfold writeDevice
  simp only [hempty, hqueue, hn, Bool.not_true, Bool.false_eq_true, if_false]
  rw [if_neg (by omega), if_neg (by omega)]

theorem Holds.openDevice (hm : m.Holds settings path n k c) (readOnly : Bool) :
    m.openDevice path readOnly =
      (.ok ⟨n, !readOnly⟩, m.note (.opened path ⟨n, !readOnly⟩)) := by
  obtain ⟨ht, contents, hn, -⟩ := hm
  simp only [Machine.openDevice, ht.node hn]

theorem Holds.tryLock (hm : m.Holds settings path n k c) (hfree : ∀ x ∈ m.held, x.file ≠ k)
    (exclusive : Bool) :
    ∃ lock : HeldLock,
      m.tryLock (Path.join settings.lockDirectory StoreLock.fileName) exclusive =
        (.ok (some lock.token),
          { m with held := m.held ++ [lock], nextToken := m.nextToken + 1 }.note
            (.locked lock)) := by
  obtain ⟨node, hopen⟩ := hm.1.toHasLock.openOrCreate
  refine ⟨⟨m.nextToken, k, exclusive⟩, ?_⟩
  simp only [Machine.tryLock, hopen, compatible_of_free hfree, if_true]

theorem readFront_keeps (m : Machine) (path : String) (limit : Nat) :
    (m.readFront path limit).2.files = m.files ∧ (m.readFront path limit).2.held = m.held := by
  unfold readFront
  split <;> exact ⟨rfl, rfl⟩

variable {l : Layout}

theorem opens (hbelow : ∀ t, l.offset t + l.copySize < fileOffsetBound) (readOnly : Bool) :
    Host.Opens settings l path readOnly (stands readOnly settings path n k) where
  pathExists := by
    rintro c m ⟨hm, hfree⟩
    refine ⟨?_, hm, hfree⟩
    obtain ⟨ht, contents, hn, -⟩ := hm
    show (m.files.node path).toBool = true
    rw [ht.node hn]
    rfl
  makeDirectory := by
    rintro c m ⟨hm, hfree⟩
    have hmade : (Host.makeDirectory settings.lockDirectory : StateM Machine _) m =
        (.error .alreadyExists, m) := by
      simp only [Host.makeDirectory, hm.1.toHasLock.makeDirectory]
    rw [Yields, hmade]
    exact ⟨Or.inr rfl, hm, hfree⟩
  tryLock := by
    rintro c m ⟨hm, hfree⟩
    obtain ⟨lock, htaken⟩ := hm.tryLock hfree (!readOnly)
    rw [Yields, show (Host.tryLock _ (!readOnly) : StateM Machine _) m = _ from htaken]
    refine ⟨lock.token, rfl, hm, ?_⟩
    intro x hx hother
    rcases List.mem_append.1 hx with hx | hx
    · exact hfree x hx
    · exact absurd (congrArg HeldLock.token (List.mem_singleton.1 hx)) hother
  unlock := by
    rintro lock c m ⟨hm, hfree⟩
    refine ⟨hm, ?_⟩
    intro x hx
    obtain ⟨hx, hother⟩ := List.mem_filter.1 hx
    exact hfree x hx (bne_iff_ne.1 hother)
  openDevice := by
    rintro lock c m ⟨hm, hfree⟩
    rw [Yields, show (Host.openDevice path readOnly : StateM Machine _) m = _ from
      hm.openDevice readOnly]
    exact ⟨_, rfl, ⟨hm, hfree⟩, rfl⟩
  closeDevice := by
    rintro lock file c m ⟨hlocked, -⟩
    exact hlocked
  readDevice := by
    rintro lock file c m offset length ⟨⟨hm, hfree⟩, rfl⟩ ⟨hlength, t, -, hend⟩
    refine ⟨?_, ⟨hm, hfree⟩, rfl⟩
    obtain ⟨-, contents, hn, rfl⟩ := hm
    exact readDevice_image hn hlength (Nat.lt_of_le_of_lt hend (hbelow t)) _

/-- Where the image is no device that has a switch, a machine serves runs on it. -/
theorem serves (hbelow : ∀ t, l.offset t + l.copySize < fileOffsetBound)
    (hswitch : ∀ root, settings.writeProtection = .sysfs root →
      WriteSwitch.directory? root path = none) :
    Host.Serves settings l path (stands false settings path n k) where
  toOpens := opens hbelow false
  readFront := by
    rintro lock c m file limit ⟨hm, hfree⟩
    obtain ⟨hfiles, hheld⟩ := m.readFront_keeps file limit
    show stands false settings path n k (.locked lock) c (m.readFront file limit).2
    rw [stands, Holds, hfiles, hheld]
    exact ⟨hm, hfree⟩
  writeFront := by
    intro lock c m root directory data hroot hdirectory
    rw [hswitch root hroot] at hdirectory
    cases hdirectory
  writeDevice := by
    rintro lock file c m w ⟨⟨⟨ht, contents, hn, rfl⟩, hfree⟩, rfl⟩ ⟨hlength, t, -, hend⟩
    have hwritten := writeDevice_image hn hlength (Nat.lt_of_le_of_lt hend (hbelow t))
    rw [Yields, show (Host.writeDevice ⟨n, !false⟩ w : StateM Machine _) m = _ from hwritten]
    exact ⟨rfl, ⟨⟨ht.setContents _, contents.overwrite w.offset w.data,
      FileTree.nodes_setContents_self hn _, Contents.toBytes_overwrite _ _ _⟩, hfree⟩, rfl⟩

end Machine

end BootStore

import BootStore.Proofs.Failover
import BootStore.Proofs.MachineLocks

/-!
# Exclusion by the store lock

At every moment of every interleaving, the locks that are held are all shared or there is one alone,
and each store that is open has the lock that its flags call for (`lock_exclusion`).
-/
namespace BootStore

variable {σ Lock File : Type} {directory : String} {sound : σ → Prop} {held : σ → Set (Hold Lock)}

namespace Sharing.State

variable {m : State σ Lock File}

/-- What the store lock sees to at every moment. -/
structure Excludes (held : σ → Set (Hold Lock)) (m : State σ Lock File) : Prop where
  mem_held : ∀ x, x ∈ held m.host ↔ ∃ t ∈ m.tasks, t.lock? = some x
  shared_or_alone : (∀ x ∈ held m.host, x.exclusive = false) ∨
    ∃ lock, held m.host = {⟨lock, true⟩}
  /-- A store that was opened for writing has an exclusive lock for as long as it is open, whether
  its session may write or not. -/
  store : ∀ t ∈ m.tasks, ∀ flags s, t.store? = some (flags, s) →
    t.lock? = some ⟨s.lock.handle, !flags.readOnly⟩
  /-- Where two stores are open, neither may write. -/
  readers : ∀ (i j : Nat) (t u : Task Lock File), i ≠ j → m.tasks[i]? = some t →
    m.tasks[j]? = some u → ∀ flags s flags' s', t.store? = some (flags, s) →
      u.store? = some (flags', s') → s.session.isReadOnly = true ∧ s'.session.isReadOnly = true
  failed : ∀ t ∈ m.tasks, ∀ e, t.rest = .done (.failed e) → t.lock? = none
  /-- An opening that is not granted the lock has done nothing but approach it. -/
  turnedAway : ∀ t ∈ m.tasks, ∀ settings flags l outcome, t.request = .openStore settings flags →
    flags.check = .ok () → settings.layout = .ok l → t.rest = .done outcome →
    Granted settings (!flags.readOnly) t.past ∨
      ∃ e, outcome = .failed e ∧ TurnedAway settings (!flags.readOnly) t.past e ∧
        ∀ r ∈ t.past, r.call.isApproach = true

namespace Orderly

theorem mem_held_iff (hm : m.Orderly directory sound held) (x : Hold Lock) :
    x ∈ held m.host ↔ ∃ t ∈ m.tasks, t.lock? = some x := by
  rw [hm.mem_held]
  constructor
  · rintro ⟨i, hi⟩
    obtain ⟨t, ht, hx⟩ := exists_of_lockAt hi
    exact ⟨t, List.mem_of_getElem? ht, hx⟩
  · rintro ⟨t, ht, hx⟩
    obtain ⟨i, hi⟩ := List.mem_iff_getElem?.1 ht
    exact ⟨i, (lockAt_eq hi).trans hx⟩

theorem shared_or_alone (hm : m.Orderly directory sound held) :
    (∀ x ∈ held m.host, x.exclusive = false) ∨ ∃ lock, held m.host = {⟨lock, true⟩} := by
  by_cases hshared : ∀ x ∈ held m.host, x.exclusive = false
  · exact Or.inl hshared
  right
  obtain ⟨⟨lock, exclusive⟩, hx, hexclusive⟩ : ∃ x ∈ held m.host, x.exclusive ≠ false := by
    simpa using hshared
  obtain rfl : exclusive = true := by simpa using hexclusive
  obtain ⟨i, hi⟩ := (hm.mem_held _).1 hx
  refine ⟨lock, Set.eq_singleton_iff_unique_mem.2 ⟨hx, ?_⟩⟩
  intro y hy
  obtain ⟨j, hj⟩ := (hm.mem_held y).1 hy
  by_cases hji : j = i
  · rw [hji, hi] at hj
    exact (Option.some.inj hj).symm
  · cases (hm.apart i _ hi y ⟨j, hji, hj⟩).2.2

theorem store_lock (hm : m.Orderly directory sound held) {t : Task Lock File} (ht : t ∈ m.tasks)
    {flags : OpenFlags} {s : Store (Program Lock File) Lock File}
    (hs : t.store? = some (flags, s)) :
    s.Fits flags ∧ t.lock? = some ⟨s.lock.handle, !flags.readOnly⟩ := by
  obtain ⟨hfits, hlock⟩ := (hm.behaves t ht).store hs
  refine ⟨hfits, hlock.trans ?_⟩
  rw [StoreLock.hold, hfits.exclusive]

theorem excludes (hm : m.Orderly directory sound held) : m.Excludes held where
  mem_held := hm.mem_held_iff
  shared_or_alone := hm.shared_or_alone
  store t ht flags s hs := (hm.store_lock ht hs).2
  readers i j t u hij ht hu flags s flags' s' hs hs' := by
    obtain ⟨hfits, hlock⟩ := hm.store_lock (List.mem_of_getElem? ht) hs
    obtain ⟨hfits', hlock'⟩ := hm.store_lock (List.mem_of_getElem? hu) hs'
    obtain ⟨-, hshared', hshared⟩ := hm.apart i _ ((lockAt_eq ht).trans hlock) _
      ⟨j, hij.symm, (lockAt_eq hu).trans hlock'⟩
    rw [Bool.not_eq_false'] at hshared hshared'
    exact ⟨hfits.reader hshared, hfits'.reader hshared'⟩
  failed t ht e hrest := (hm.behaves t ht).lock?_of_done hrest
  turnedAway t ht settings flags l outcome hrequest hcheck hl hrest := by
    obtain ⟨opened, rfl, hopened⟩ :=
      ((hm.behaves t ht).ends hrest).opening settings flags hrequest
    rcases hopened.granted_or_turnedAway hcheck hl with hgranted | ⟨e, rfl, haway⟩
    · exact Or.inl hgranted
    · exact Or.inr ⟨e, rfl, haway⟩

end Orderly

variable [Host (StateM σ) Lock File]

theorem step_advance {i : Nat} {r : Request Lock File} {past : List (Reply Lock File)}
    {c : HostCall Lock File} {next : c.Answer → Program Lock File (Outcome Lock File)}
    (ht : m.tasks[i]? = some ⟨r, past, .call c next⟩) :
    m.step (.advance i) = ⟨(c.perform m.host).2, m.tasks.set i
      ⟨r, past ++ [⟨c, (c.perform m.host).1⟩], next (c.perform m.host).1⟩⟩ := by
  simp only [step, ht]
  rfl

/-- Left alone, a task comes to its end. What its calls keep, by the replies so far and the state of
the host, holds then too. -/
theorem run_alone {before : List (Reply Lock File) → HostCall Lock File → Prop}
    {after : List (Reply Lock File) → Outcome Lock File → Prop}
    {keeps : List (Reply Lock File) → σ → Prop}
    (hstep : ∀ past c w, before past c → keeps past w →
      Yields c.perform w fun answer w' => keeps (past ++ [⟨c, answer⟩]) w')
    (tasks : List (Task Lock File)) (r : Request Lock File)
    {p : Program Lock File (Outcome Lock File)} {past : List (Reply Lock File)} {w : σ}
    (hp : p.Follows before after past) (hw : keeps past w) :
    ∃ n past' outcome w',
      run ⟨w, tasks ++ [⟨r, past, p⟩]⟩ (List.replicate n (.advance tasks.length)) =
        ⟨w', tasks ++ [⟨r, past', .done outcome⟩]⟩ ∧
      keeps past' w' ∧ after past' outcome := by
  induction p generalizing past w with
  | done outcome => exact ⟨0, past, outcome, w, rfl, hw, hp⟩
  | call c next ih =>
    -- the first event makes the call, and the others lead on from the answer that the host gives
    obtain ⟨n, past', outcome, w', hrun, hend⟩ :=
      ih (c.perform w).1 (hp.2 _) (hstep past c w hp.1 hw)
    refine ⟨n + 1, past', outcome, w', ?_, hend⟩
    have hnext := step_advance (m := ⟨w, tasks ++ [⟨r, past, .call c next⟩]⟩)
      List.getElem?_concat_length
    have hset : ∀ t u : Task Lock File, (tasks ++ [t]).set tasks.length u = tasks ++ [u] := by
      simp
    rw [List.replicate_succ, run, List.foldl_cons, hnext, hset]
    exact hrun

/-- A task that began without a lock has left those of others as they were, and was granted one only
if it gets along with them. What it was answered is what the host answers. -/
structure Spared (sound : σ → Prop) (held : σ → Set (Hold Lock)) (others : Set (Hold Lock))
    (past : List (Reply Lock File)) (w : σ) : Prop where
  answers : ∀ r ∈ past, ∃ v, sound v ∧ (r.call.perform v).1 = r.answer
  beside : Beside others (ownAfter none past) (held w)
  granted : ∀ path exclusive lock, ⟨.tryLock path exclusive, .ok (some lock)⟩ ∈ past →
    Compatible others exclusive
  sound : sound w

theorem Spared.perform (hf : Host.Flocks directory sound held) {others : Set (Hold Lock)}
    {past : List (Reply Lock File)} {w : σ} (h : Spared sound held others past w)
    {c : HostCall Lock File} (hc : HostCall.InOrder directory none past c) :
    Yields c.perform w fun answer w' =>
      Spared sound held others (past ++ [⟨c, answer⟩]) w' := by
  obtain ⟨hsound, hbeside, hgranted⟩ := hf.perform h.sound h.beside hc.1
  refine ⟨?_, ?_, ?_, hsound⟩
  · intro r hr
    rcases List.mem_append.1 hr with hr | hr
    · exact h.answers r hr
    · rw [List.mem_singleton.1 hr]
      exact ⟨w, h.sound, rfl⟩
  · rw [ownAfter_concat]
    exact hbeside
  · intro path exclusive lock hreply
    rcases List.mem_append.1 hreply with hreply | hreply
    · exact h.granted path exclusive lock hreply
    · exact hgranted path exclusive lock (List.mem_singleton.1 hreply).symm

end Sharing.State

open Sharing (State)

/-- Readers or one writer, on every host with such locks, in every state that tasks lead to which
open, use and close stores and take and release locks in one directory, in whatever order their calls
of the host come. The locks that are held are those of the tasks, and they are all shared or there is
one alone. A store that was opened for writing has an exclusive lock for as long as it is open, also
if its session may not write, so a store that may write is never open beside another. From each such
state, an opening that is left alone comes to its end. If it fails, the locks that are held are those
that were held before. If its flags and its layout are valid and its lock conflicts with one that is
held, it fails with the lock contended, or for want of a device or of the lock file, and it makes no
call that touches the device, its switch or a lock. Where a device is there and the lock file can be
had, it fails with the lock contended. -/
theorem lock_exclusion [Host (StateM σ) Lock File] (hflocks : Host.Flocks directory sound held)
    {host : σ} (hsound : sound host) (hfree : held host = ∅) (events : List Sharing.Event)
    (hshared : ∀ event ∈ events, event.Shares directory) :
    let m : State σ Lock File := State.run ⟨host, []⟩ events
    m.Excludes held ∧
    ∀ settings flags, settings.lockDirectory = directory → ∃ n past outcome,
      let after := m.run (.openStore settings flags :: List.replicate n (.advance m.tasks.length))
      after.tasks = m.tasks ++ [⟨.openStore settings flags, past, .done outcome⟩] ∧
      (∀ e, outcome = .failed e → held after.host = held m.host) ∧
      ∀ l, flags.check = .ok () → settings.layout = .ok l →
        ¬ Compatible (held m.host) (!flags.readOnly) →
        ∃ e, outcome = .failed e ∧ TurnedAway settings (!flags.readOnly) past e ∧
          (Host.LeadsToLock settings sound →
            e = .lockContended (Path.join directory StoreLock.fileName)) ∧
          ∀ r ∈ past, r.call.isApproach = true := by
  intro m
  have hm : m.Orderly directory sound held :=
    (State.Orderly.nil hsound hfree).run hflocks hshared
  refine ⟨hm.excludes, ?_⟩
  rintro settings flags rfl
  have hfits : (Sharing.Request.openStore settings flags : Sharing.Request Lock File).Fits
      settings.lockDirectory :=
    ⟨by rintro _ _ ⟨⟩; rfl, by rintro _ _ ⟨⟩, by rintro _ _ ⟨⟩⟩
  have hstart : State.Spared sound held (held m.host) ([] : List (Reply Lock File)) m.host :=
    ⟨by rintro _ ⟨⟩, .nothing (held m.host), by rintro _ _ _ ⟨⟩, hm.sound⟩
  have hstep : ∀ (past : List (Reply Lock File)) c w,
      HostCall.InOrder settings.lockDirectory none past c →
      State.Spared sound held (held m.host) past w → Yields c.perform w fun answer w' =>
        State.Spared sound held (held m.host) (past ++ [⟨c, answer⟩]) w' :=
    fun past c w hc hspared => hspared.perform hflocks hc
  obtain ⟨n, past, outcome, w, hrun, hspared, hends⟩ :=
    State.run_alone hstep m.tasks (.openStore settings flags)
      (Sharing.Request.program_follows hfits) hstart
  have hafter : m.run (.openStore settings flags ::
      List.replicate n (.advance m.tasks.length)) = ⟨w, _⟩ := hrun
  refine ⟨n, past, outcome, ?_⟩
  rw [hafter]
  refine ⟨rfl, ?_, ?_⟩
  · rintro e rfl
    have hbeside := hspared.beside
    rw [show ownAfter none past = none from hends.lock] at hbeside
    exact hbeside.free
  · intro l hcheck hl hconflict
    obtain ⟨opened, rfl, hopened⟩ := hends.opening settings flags rfl
    rcases hopened.granted_or_turnedAway hcheck hl with ⟨lock, hgranted⟩ | ⟨e, rfl, haway⟩
    · exact absurd (hspared.granted _ _ lock hgranted) hconflict
    · obtain ⟨haway, happroach⟩ := haway
      exact ⟨e, rfl, haway, fun hleads => haway.contended_of_leads hleads hspared.answers, happroach⟩

/-- A reader has the lock, and one who would write finds it contended. -/
theorem lock_exclusion_refused :
    let settings := Command.settings (some "disk.img")
    let directory := settings.lockDirectory
    let sound := Machine.KeepsLock directory 40 ["disk.img"]
    let host : Machine := { files := .besideImage [] [] }
    let events : List Sharing.Event := [.acquire directory false, .advance 0, .advance 0]
    let m : State Machine Nat DeviceFile := State.run ⟨host, []⟩ events
    Host.Flocks directory sound (Machine.locksOn 40) ∧ Host.LeadsToLock settings sound ∧
    sound host ∧ host.locksOn 40 = ∅ ∧ (∀ event ∈ events, event.Shares directory) ∧
    m.host.locksOn 40 = {⟨0, false⟩} ∧
    ∃ n past,
      let after := m.run (.openStore settings {} :: List.replicate n (.advance m.tasks.length))
      after.tasks = m.tasks ++ [⟨.openStore settings {}, past,
        .done (.failed (.lockContended (Path.join directory StoreLock.fileName)))⟩] ∧
      after.host.locksOn 40 = {⟨0, false⟩} := by
  intro settings directory sound host events m
  have hstore : host.files.HasStore settings "disk.img" 48 40 := FileTree.hasStore_besideImage [] []
  obtain ⟨image, himage⟩ := hstore.image
  have hlock : host.KeepsLock directory 40 ["disk.img"] := by
    refine ⟨hstore.toHasLock, ?_, by rintro x ⟨⟩⟩
    intro path hpath
    rw [List.mem_singleton.1 hpath, hstore.node himage]
    rfl
  have hdevice : "disk.img" ∈ settings.devices := List.mem_cons_self
  have hleads : Host.LeadsToLock settings sound :=
    Machine.leadsToLock hdevice List.mem_cons_self
  have hfree : host.locksOn 40 = ∅ := by
    ext x
    exact iff_of_false (by rintro ⟨l, ⟨⟩, -⟩) (Set.notMem_empty x)
  have hshared : ∀ event ∈ events, event.Shares directory := by
    simp [events, Sharing.Event.Shares]
  let begun : State Machine Nat DeviceFile := ⟨host, [.begin (.acquire directory false)]⟩
  have hmade := begun.step_advance (i := 0) (c := .makeDirectory directory) rfl
  rw [show (HostCall.makeDirectory directory : HostCall Nat DeviceFile).perform begun.host = _ from
    hlock.makeDirectory] at hmade
  obtain ⟨r, past, next, hask⟩ : ∃ r past next, (begun.step (.advance 0)).tasks[0]? =
      some ⟨r, past, .call (.tryLock (Path.join directory StoreLock.fileName) false) next⟩ := by
    rw [hmade]
    exact ⟨_, _, _, rfl⟩
  have htaken := congrArg State.host (State.step_advance hask)
  have hheld : m.host.locksOn 40 = {⟨0, false⟩} := by
    rw [show m = (begun.step (.advance 0)).step (.advance 0) from rfl, htaken,
      show (begun.step (.advance 0)).host = host from congrArg State.host hmade,
      HostCall.perform, hlock.tryLock false]
    ext x
    constructor
    · rintro ⟨l, hl, -, rfl⟩
      rw [List.mem_singleton.1 hl]
      rfl
    · rintro rfl
      exact ⟨_, List.mem_cons_self, rfl, rfl⟩
  have hconflict : ¬ Compatible (m.host.locksOn 40) true := by
    rw [hheld]
    intro h
    cases (h _ rfl).2
  obtain ⟨-, hopens⟩ :=
    lock_exclusion (Machine.flocks directory 40 ["disk.img"]) hlock hfree events hshared
  obtain ⟨n, past, outcome, htasks, hkept, haway⟩ := hopens settings {} rfl
  obtain ⟨e, rfl, -, hcontended, -⟩ := haway _ rfl (Command.layout_settings _) hconflict
  obtain rfl := hcontended hleads
  exact ⟨Machine.flocks directory 40 _, hleads, hlock, hfree, hshared, hheld, n, past, htasks,
    (hkept _ rfl).trans hheld⟩

end BootStore

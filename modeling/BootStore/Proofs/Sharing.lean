import BootStore.Proofs.LockUse
import Mathlib.Data.Set.Insert

/-!
# Sharing a lock directory

Tasks that open, use and close stores and take and release locks, all by the lock file of one
directory, their calls of the host in any order. The locks that are held are those of the tasks and
get along with each other (`Sharing.State.Orderly`).
-/
namespace BootStore

variable {σ Lock File : Type}

def Compatible (held : Set (Hold Lock)) (exclusive : Bool) : Prop :=
  ∀ x ∈ held, x.exclusive = false ∧ exclusive = false

/-- Locks of the kind that belongs to an open file, on the lock file of a directory, which is opened
anew for every lock. A lock that would conflict is not granted, and no lock is lost but by its being
given back. -/
structure Host.Flocks [Host (StateM σ) Lock File] (directory : String) (sound : σ → Prop)
    (held : σ → Set (Hold Lock)) : Prop where
  tryLock : ∀ {w}, sound w → ∀ exclusive,
    Yields (Host.tryLock (Path.join directory StoreLock.fileName) exclusive) w fun taken w' =>
      sound w' ∧
        match taken with
        | .ok (some lock) => Compatible (held w) exclusive ∧ (∀ x ∈ held w, x.lock ≠ lock) ∧
            held w' = insert ⟨lock, exclusive⟩ (held w)
        | .ok none => ¬ Compatible (held w) exclusive ∧ held w' = held w
        | .error _ => held w' = held w
  unlock : ∀ {w}, sound w → ∀ lock, Yields (Host.unlock lock) w fun _ w' =>
    sound w' ∧ held w' = {x ∈ held w | x.lock ≠ lock}
  makeDirectory : ∀ {w}, sound w → Yields (Host.makeDirectory directory) w fun _ w' =>
    sound w' ∧ held w' = held w
  device : ∀ {w}, sound w → ∀ c : HostCall Lock File, c.isDeviceCall = true →
    Yields c.perform w fun _ w' => sound w' ∧ held w' = held w

/-- Openings with these settings come as far as their lock: a device is there, and the directory and
the file of the lock can be had. -/
structure Host.LeadsToLock [Host (StateM σ) Lock File] (settings : Settings) (sound : σ → Prop) :
    Prop where
  device : ∃ path ∈ settings.devices, ∀ {w}, sound w →
    Yields (Host.pathExists path) w fun found _ => found = true
  directory : ∀ {w}, sound w → Yields (Host.makeDirectory settings.lockDirectory) w fun made _ =>
    ∀ e, made = .error e → e = .alreadyExists
  lockFile : ∀ {w}, sound w → ∀ exclusive,
    Yields (Host.tryLock (Path.join settings.lockDirectory StoreLock.fileName) exclusive) w
      fun taken _ => ∀ e, taken ≠ .error e

/-- All locks are those of others and this one, which gets along with them. -/
structure Beside (others : Set (Hold Lock)) (own : Option (Hold Lock)) (all : Set (Hold Lock)) :
    Prop where
  mem_iff : ∀ x, x ∈ all ↔ x ∈ others ∨ own = some x
  apart : ∀ x, own = some x → ∀ y ∈ others,
    y.lock ≠ x.lock ∧ y.exclusive = false ∧ x.exclusive = false

namespace Beside

variable {others all : Set (Hold Lock)} {lock : Lock} {exclusive : Bool}

theorem nothing (others : Set (Hold Lock)) : Beside others none others :=
  ⟨fun _ => (or_iff_left nofun).symm, by rintro _ ⟨⟩⟩

theorem free (h : Beside others none all) : all = others := by
  ext x
  rw [h.mem_iff]
  exact or_iff_left nofun

theorem granted (h : Beside others none all) (hcompatible : Compatible all exclusive)
    (hfresh : ∀ x ∈ all, x.lock ≠ lock) :
    Beside others (some ⟨lock, exclusive⟩) (insert ⟨lock, exclusive⟩ all) := by
  rw [h.free] at hcompatible hfresh ⊢
  constructor
  · intro x
    rw [Set.mem_insert_iff, or_comm, Option.some_inj, eq_comm]
  · rintro _ ⟨⟩ y hy
    exact ⟨hfresh y hy, hcompatible y hy⟩

theorem returned (h : Beside others (some ⟨lock, exclusive⟩) all) :
    Beside others none {x ∈ all | x.lock ≠ lock} := by
  constructor
  · intro x
    rw [Set.mem_sep_iff, h.mem_iff]
    constructor
    · rintro ⟨hx | hx, hother⟩
      · exact Or.inl hx
      · cases hx
        exact absurd rfl hother
    · rintro (hx | hx)
      · exact ⟨Or.inl hx, (h.apart _ rfl x hx).1⟩
      · cases hx
  · rintro _ ⟨⟩

end Beside

variable {directory : String} {sound : σ → Prop} {held : σ → Set (Hold Lock)}

theorem Host.Flocks.perform [Host (StateM σ) Lock File] (hf : Host.Flocks directory sound held)
    {w : σ} (hsound : sound w) {others : Set (Hold Lock)} {own : Option (Hold Lock)}
    (hw : Beside others own (held w)) {c : HostCall Lock File} (hc : c.Permitted directory own) :
    Yields c.perform w fun answer w' => sound w' ∧
      Beside others (Reply.track own ⟨c, answer⟩) (held w') ∧
      ∀ path exclusive lock,
        (⟨c, answer⟩ : Reply Lock File) = ⟨.tryLock path exclusive, .ok (some lock)⟩ →
        Compatible others exclusive := by
  cases hdevice : c.isDeviceCall with
  | true =>
    refine (hf.device hsound c hdevice).imp ?_
    rintro answer w' ⟨hsound', hheld⟩
    refine ⟨hsound', ?_, ?_⟩
    · rw [hheld, Reply.track_of_device hdevice]
      exact hw
    · rintro path exclusive lock ⟨⟩
      cases hdevice
  | false =>
    cases c with
    | makeDirectory path =>
      obtain rfl := hc
      refine (hf.makeDirectory hsound).imp ?_
      rintro answer w' ⟨hsound', hheld⟩
      rw [hheld]
      exact ⟨hsound', hw, nofun⟩
    | tryLock path exclusive =>
      obtain ⟨rfl, rfl⟩ := hc
      refine (hf.tryLock hsound exclusive).imp ?_
      rintro (e | lock | lock) w' ⟨hsound', htaken⟩
      · rw [htaken]
        exact ⟨hsound', hw, by rintro _ _ _ ⟨⟩⟩
      · rw [htaken.2]
        exact ⟨hsound', hw, by rintro _ _ _ ⟨⟩⟩
      · obtain ⟨hcompatible, hfresh, hheld⟩ := htaken
        rw [hheld]
        refine ⟨hsound', hw.granted hcompatible hfresh, ?_⟩
        rintro _ _ _ ⟨⟩
        rw [← hw.free]
        exact hcompatible
    | unlock lock =>
      obtain ⟨exclusive, rfl⟩ := hc
      refine (hf.unlock hsound lock).imp ?_
      rintro answer w' ⟨hsound', hheld⟩
      rw [hheld]
      exact ⟨hsound', hw.returned, nofun⟩
    | _ => cases hdevice

theorem TurnedAway.contended_of_leads [Host (StateM σ) Lock File] {settings : Settings}
    (hleads : Host.LeadsToLock settings sound) {exclusive : Bool} {past : List (Reply Lock File)}
    {e : StoreError} (h : TurnedAway settings exclusive past e)
    (hanswers : ∀ r ∈ past, ∃ w, sound w ∧ (r.call.perform w).1 = r.answer) :
    e = .lockContended (Path.join settings.lockDirectory StoreLock.fileName) := by
  cases h with
  | absent hall =>
    obtain ⟨path, hpath, hthere⟩ := hleads.device
    obtain ⟨w, hw, hanswer⟩ := hanswers _ (hall path hpath)
    cases (hthere hw).symm.trans hanswer
  | unmade hreply hother =>
    obtain ⟨w, hw, hanswer⟩ := hanswers _ hreply
    exact absurd (hleads.directory hw _ hanswer) hother
  | unopened hreply =>
    obtain ⟨w, hw, hanswer⟩ := hanswers _ hreply
    exact absurd hanswer (hleads.lockFile hw exclusive _)
  | contended => rfl

namespace Sharing

inductive Outcome (Lock File : Type) where
  | failed (e : StoreError)
  | opened (flags : OpenFlags) (s : Store (Program Lock File) Lock File)
  | locked (l : StoreLock Lock)
  | released

inductive Request (Lock File : Type) where
  | openStore (settings : Settings) (flags : OpenFlags)
  | use (flags : OpenFlags) (s : Store (Program Lock File) Lock File) (ops : List Operation)
  | close (flags : OpenFlags) (s : Store (Program Lock File) Lock File)
  | acquire (directory : String) (exclusive : Bool)
  | release (l : StoreLock Lock)

namespace Outcome

def ofOpening (flags : OpenFlags) :
    Except StoreError (Store (Program Lock File) Lock File) → Outcome Lock File
  | .error e => .failed e
  | .ok s => .opened flags s

def ofLocking : Except StoreError (StoreLock Lock) → Outcome Lock File
  | .error e => .failed e
  | .ok l => .locked l

def lock? : Outcome Lock File → Option (Hold Lock)
  | .opened _ s => some s.lock.hold
  | .locked l => some l.hold
  | .failed _ | .released => none

def store? : Outcome Lock File → Option (OpenFlags × Store (Program Lock File) Lock File)
  | .opened flags s => some (flags, s)
  | _ => none

def use? (ops : List Operation) : Outcome Lock File → Option (Request Lock File)
  | .opened flags s => some (.use flags s ops)
  | _ => none

def letGo? : Outcome Lock File → Option (Request Lock File)
  | .opened flags s => some (.close flags s)
  | .locked l => some (.release l)
  | _ => none

def Fits (outcome : Outcome Lock File) : Prop :=
  ∀ flags s, outcome.store? = some (flags, s) → s.Fits flags

end Outcome

namespace Request

def program : Request Lock File → Program Lock File (Outcome Lock File)
  | .openStore settings flags => Outcome.ofOpening flags <$> Store.openConfigured settings flags
  | .use flags s ops => do
    let (_, s) ← s.update (Operation.runAll · ops)
    return .opened flags s
  | .close _ s => do
    s.close
    return .released
  | .acquire directory exclusive => Outcome.ofLocking <$> StoreLock.acquire directory exclusive
  | .release l => do
    l.release
    return .released

def lock? : Request Lock File → Option (Hold Lock)
  | .use _ s _ | .close _ s => some s.lock.hold
  | .release l => some l.hold
  | .openStore _ _ | .acquire _ _ => none

def store? : Request Lock File → Option (OpenFlags × Store (Program Lock File) Lock File)
  | .use flags s _ | .close flags s => some (flags, s)
  | _ => none

/-- A request for the lock of this directory, or on a store as an opening gives it. -/
structure Fits (directory : String) (r : Request Lock File) : Prop where
  openStore : ∀ settings flags, r = .openStore settings flags → settings.lockDirectory = directory
  acquire : ∀ path exclusive, r = .acquire path exclusive → path = directory
  store : ∀ flags s, r.store? = some (flags, s) → s.Fits flags

structure Ends (r : Request Lock File) (past : List (Reply Lock File))
    (outcome : Outcome Lock File) : Prop where
  lock : ownAfter r.lock? past = outcome.lock?
  fits : outcome.Fits
  opening : ∀ settings flags, r = .openStore settings flags →
    ∃ opened, outcome = .ofOpening flags opened ∧ Store.Opened settings flags past opened

/-- Whatever the host answers, a request makes its calls in order and ends with the lock that its
outcome tells of. -/
theorem program_follows {r : Request Lock File} (hr : r.Fits directory) :
    r.program.Follows (HostCall.InOrder directory r.lock?) r.Ends [] := by
  cases r with
  | openStore settings flags =>
    obtain rfl := hr.openStore settings flags rfl
    refine (Store.openConfigured_follows settings flags).map ?_
    intro past opened hopened
    have hends : ownAfter none past = (Outcome.ofOpening flags opened).lock? ∧
        (Outcome.ofOpening flags opened).Fits := by
      cases hopened with
      | invalid hinvalid hpast =>
        subst hpast
        exact ⟨rfl, by rintro _ _ ⟨⟩⟩
      | turnedAway hpast haway => exact ⟨hpast.free, by rintro _ _ ⟨⟩⟩
      | failed hgranted hfree => exact ⟨hfree, by rintro _ _ ⟨⟩⟩
      | opened hgranted hheld hfits =>
        refine ⟨hheld, ?_⟩
        rintro _ _ ⟨⟩
        exact hfits
    refine ⟨hends.1, hends.2, ?_⟩
    rintro _ _ ⟨⟩
    exact ⟨opened, rfl, hopened⟩
  | use flags s ops =>
    have hs := hr.store flags s rfl
    refine (Program.Follows.of_device (s.update_satisfies ops) rfl fun _ => rfl).bind ?_
    rintro past ⟨answers, after⟩ ⟨hheld, -, session, rfl, hmode⟩
    refine ⟨hheld, ?_, by rintro _ _ ⟨⟩⟩
    rintro _ _ ⟨⟩
    exact ⟨hs.exclusive, fun hreader => hmode.trans (hs.reader hreader), hs.guard⟩
  | close flags s =>
    refine (Store.close_follows (hr.store flags s rfl) directory).bind ?_
    intro past _ hfree
    exact ⟨hfree, by rintro _ _ ⟨⟩, by rintro _ _ ⟨⟩⟩
  | acquire path exclusive =>
    obtain rfl := hr.acquire path exclusive rfl
    have hacquire : (StoreLock.acquire path exclusive : Program Lock File _).Follows
        (HostCall.InOrder path none) (StoreLock.Acquired { lockDirectory := path } exclusive) [] :=
      StoreLock.acquire_follows { lockDirectory := path } exclusive .nil
    refine hacquire.map ?_
    rintro past _ (⟨hpast, haway⟩ | ⟨-, hgranted, hheld⟩)
    · exact ⟨hpast.free, by rintro _ _ ⟨⟩, by rintro _ _ ⟨⟩⟩
    · exact ⟨hheld, by rintro _ _ ⟨⟩, by rintro _ _ ⟨⟩⟩
  | release l =>
    refine (l.release_follows rfl fun _ => rfl).bind ?_
    rintro past - ⟨hfree, -⟩
    exact ⟨hfree, by rintro _ _ ⟨⟩, by rintro _ _ ⟨⟩⟩

end Request

/-- A request, the replies that it has had so far, and what is left of its program. -/
structure Task (Lock File : Type) where
  request : Request Lock File
  past : List (Reply Lock File) := []
  rest : Program Lock File (Outcome Lock File)

namespace Task

def begin (r : Request Lock File) : Task Lock File where
  request := r
  rest := r.program

def lock? (t : Task Lock File) : Option (Hold Lock) := ownAfter t.request.lock? t.past

def store? (t : Task Lock File) : Option (OpenFlags × Store (Program Lock File) Lock File) :=
  match t.rest with
  | .done outcome => outcome.store?
  | .call _ _ => t.request.store?

structure Behaves (directory : String) (t : Task Lock File) : Prop where
  fits : t.request.Fits directory
  follows : t.rest.Follows (HostCall.InOrder directory t.request.lock?) t.request.Ends t.past

theorem begin_behaves {r : Request Lock File} (hr : r.Fits directory) :
    (begin r).Behaves directory :=
  ⟨hr, Request.program_follows hr⟩

variable {t : Task Lock File}

theorem Behaves.ends (ht : t.Behaves directory) {outcome : Outcome Lock File}
    (hrest : t.rest = .done outcome) : t.request.Ends t.past outcome := by
  have hends := ht.follows
  rw [hrest] at hends
  exact hends

theorem Behaves.lock?_of_done (ht : t.Behaves directory) {outcome : Outcome Lock File}
    (hrest : t.rest = .done outcome) : t.lock? = outcome.lock? :=
  (ht.ends hrest).lock

theorem Behaves.store (ht : t.Behaves directory) {flags : OpenFlags}
    {s : Store (Program Lock File) Lock File} (hs : t.store? = some (flags, s)) :
    s.Fits flags ∧ t.lock? = some s.lock.hold := by
  unfold store? at hs
  split at hs
  · next outcome hrest =>
    refine ⟨(ht.ends hrest).fits flags s hs, ?_⟩
    rw [ht.lock?_of_done hrest]
    cases outcome with
    | opened flags' s' =>
      cases hs
      rfl
    | _ => cases hs
  · next c next hrest =>
    refine ⟨ht.fits.store flags s hs, ?_⟩
    have hnext := ht.follows
    rw [hrest] at hnext
    have hown : t.request.lock? = some s.lock.hold := by
      cases hr : t.request with
      | use flags' s' ops =>
        rw [hr] at hs
        cases hs
        rfl
      | close flags' s' =>
        rw [hr] at hs
        cases hs
        rfl
      | _ =>
        rw [hr] at hs
        cases hs
    -- a call is still to come, and only the last one gives the lock back
    exact (hnext.1.2 (by rw [hown]; nofun)).trans hown

end Task

structure State (σ Lock File : Type) where
  host : σ
  tasks : List (Task Lock File) := []

inductive Event where
  | openStore (settings : Settings) (flags : OpenFlags)
  | acquire (directory : String) (exclusive : Bool)
  | use (i : Nat) (ops : List Operation)
  /-- The store is closed, or the lock released. -/
  | letGo (i : Nat)
  /-- The task makes its next call of the host. -/
  | advance (i : Nat)

def Event.Shares (directory : String) : Event → Prop
  | .openStore settings _ => settings.lockDirectory = directory
  | .acquire path _ => path = directory
  | .use _ _ | .letGo _ | .advance _ => True

namespace State

variable {m : State σ Lock File} {t : Task Lock File} {i : Nat}

def start (m : State σ Lock File) (r : Request Lock File) : State σ Lock File :=
  { m with tasks := m.tasks ++ [.begin r] }

/-- A task that has come to its end goes on with what it does next, if that is for it to do. -/
def resume (m : State σ Lock File) (i : Nat)
    (next? : Outcome Lock File → Option (Request Lock File)) : State σ Lock File :=
  match m.tasks[i]? with
  | some ⟨_, _, .done outcome⟩ =>
    match next? outcome with
    | some r => { m with tasks := m.tasks.set i (.begin r) }
    | none => m
  | _ => m

def step [Host (StateM σ) Lock File] (m : State σ Lock File) : Event → State σ Lock File
  | .openStore settings flags => m.start (.openStore settings flags)
  | .acquire directory exclusive => m.start (.acquire directory exclusive)
  | .use i ops => m.resume i (·.use? ops)
  | .letGo i => m.resume i (·.letGo?)
  | .advance i =>
    match m.tasks[i]? with
    | some ⟨request, past, .call c next⟩ =>
      let (answer, host) := c.perform m.host
      ⟨host, m.tasks.set i ⟨request, past ++ [⟨c, answer⟩], next answer⟩⟩
    | _ => m

def run [Host (StateM σ) Lock File] (m : State σ Lock File) (events : List Event) :
    State σ Lock File :=
  events.foldl step m

def lockAt (m : State σ Lock File) (i : Nat) : Option (Hold Lock) := m.tasks[i]?.bind Task.lock?

def others (m : State σ Lock File) (i : Nat) : Set (Hold Lock) :=
  {x | ∃ j, j ≠ i ∧ m.lockAt j = some x}

theorem lockAt_eq (ht : m.tasks[i]? = some t) : m.lockAt i = t.lock? := by
  rw [lockAt, ht]
  rfl

theorem exists_of_lockAt {x : Hold Lock} (h : m.lockAt i = some x) :
    ∃ t, m.tasks[i]? = some t ∧ t.lock? = some x :=
  Option.bind_eq_some_iff.1 h

theorem lockAt_append (m : State σ Lock File) (hfree : t.lock? = none) :
    lockAt (⟨m.host, m.tasks ++ [t]⟩ : State σ Lock File) = m.lockAt := by
  funext i
  rw [lockAt, lockAt, List.getElem?_append]
  split
  · rfl
  · next hi =>
    rw [List.getElem?_eq_none (Nat.le_of_not_lt hi)]
    cases hlast : [t][i - m.tasks.length]? with
    | none => rfl
    | some u =>
      obtain rfl := List.mem_singleton.1 (List.mem_of_getElem? hlast)
      exact hfree

theorem lockAt_set_self (ht : m.tasks[i]? = some t) (host : σ) (t' : Task Lock File) :
    lockAt (⟨host, m.tasks.set i t'⟩ : State σ Lock File) i = t'.lock? :=
  lockAt_eq (List.getElem?_set_self (List.getElem?_eq_some_iff.1 ht).1)

theorem lockAt_set_ne {j : Nat} (hj : j ≠ i) (m : State σ Lock File) (host : σ)
    (t' : Task Lock File) :
    lockAt (⟨host, m.tasks.set i t'⟩ : State σ Lock File) j = m.lockAt j := by
  rw [lockAt, lockAt, List.getElem?_set_ne hj.symm]

/-- The tasks behave, the locks that are held are theirs, and each gets along with the others. -/
structure Orderly (directory : String) (sound : σ → Prop) (held : σ → Set (Hold Lock))
    (m : State σ Lock File) : Prop where
  sound : sound m.host
  behaves : ∀ t ∈ m.tasks, t.Behaves directory
  mem_held : ∀ x, x ∈ held m.host ↔ ∃ i, m.lockAt i = some x
  apart : ∀ i x, m.lockAt i = some x → ∀ y ∈ m.others i,
    y.lock ≠ x.lock ∧ y.exclusive = false ∧ x.exclusive = false

namespace Orderly

theorem nil {host : σ} (hsound : sound host) (hfree : held host = ∅) :
    Orderly directory sound held (⟨host, []⟩ : State σ Lock File) := by
  refine ⟨hsound, by rintro t ⟨⟩, ?_, by rintro i x ⟨⟩⟩
  intro x
  rw [hfree]
  exact iff_of_false (Set.notMem_empty x) (by rintro ⟨i, ⟨⟩⟩)

theorem beside (hm : m.Orderly directory sound held) (i : Nat) :
    Beside (m.others i) (m.lockAt i) (held m.host) := by
  refine ⟨?_, hm.apart i⟩
  intro x
  rw [hm.mem_held]
  constructor
  · rintro ⟨j, hj⟩
    by_cases hji : j = i
    · exact Or.inr (hji ▸ hj)
    · exact Or.inl ⟨j, hji, hj⟩
  · rintro (⟨j, -, hj⟩ | hi)
    · exact ⟨j, hj⟩
    · exact ⟨i, hi⟩

theorem append (hm : m.Orderly directory sound held) (ht : t.Behaves directory)
    (hfree : t.lock? = none) :
    Orderly directory sound held (⟨m.host, m.tasks ++ [t]⟩ : State σ Lock File) := by
  have hlock := m.lockAt_append hfree
  refine ⟨hm.sound, ?_, ?_, ?_⟩
  · intro u hu
    rcases List.mem_append.1 hu with hu | hu
    · exact hm.behaves u hu
    · rw [List.mem_singleton.1 hu]
      exact ht
  · rw [hlock]
    exact hm.mem_held
  · unfold others
    rw [hlock]
    exact hm.apart

theorem set (hm : m.Orderly directory sound held) (ht : m.tasks[i]? = some t) {host : σ}
    (hsound : sound host) {t' : Task Lock File} (ht' : t'.Behaves directory)
    (hbeside : Beside (m.others i) t'.lock? (held host)) :
    Orderly directory sound held (⟨host, m.tasks.set i t'⟩ : State σ Lock File) := by
  have hself := lockAt_set_self ht host t'
  have hne : ∀ j, j ≠ i → lockAt (⟨host, m.tasks.set i t'⟩ : State σ Lock File) j = m.lockAt j :=
    fun j hj => lockAt_set_ne hj m host t'
  refine ⟨hsound, ?_, ?_, ?_⟩
  · intro u hu
    rcases List.mem_or_eq_of_mem_set hu with hu | rfl
    · exact hm.behaves u hu
    · exact ht'
  · intro x
    rw [hbeside.mem_iff]
    constructor
    · rintro (⟨j, hj, hx⟩ | hx)
      · exact ⟨j, (hne j hj).trans hx⟩
      · exact ⟨i, hself.trans hx⟩
    · rintro ⟨j, hx⟩
      by_cases hj : j = i
      · subst hj
        exact Or.inr (hself.symm.trans hx)
      · exact Or.inl ⟨j, hj, (hne j hj).symm.trans hx⟩
  · -- the task that changed is one of the two, or neither
    rintro j x hx y ⟨k, hkj, hy⟩
    by_cases hj : j = i
    · subst hj
      exact hbeside.apart x (hself.symm.trans hx) y ⟨k, hkj, (hne k hkj).symm.trans hy⟩
    · rw [hne j hj] at hx
      by_cases hk : k = i
      · subst hk
        obtain ⟨hlock, hshared, hshared'⟩ :=
          hbeside.apart y (hself.symm.trans hy) x ⟨j, hj, hx⟩
        exact ⟨hlock.symm, hshared', hshared⟩
      · exact hm.apart j x hx y ⟨k, hkj, (hne k hk).symm.trans hy⟩

theorem start (hm : m.Orderly directory sound held) {r : Request Lock File}
    (hr : r.Fits directory) (hfree : r.lock? = none) :
    (m.start r).Orderly directory sound held :=
  hm.append (Task.begin_behaves hr) hfree

theorem resume (hm : m.Orderly directory sound held)
    {next? : Outcome Lock File → Option (Request Lock File)}
    (hnext : ∀ outcome r, next? outcome = some r → outcome.Fits →
      r.Fits directory ∧ r.lock? = outcome.lock?) (i : Nat) :
    (m.resume i next?).Orderly directory sound held := by
  unfold State.resume
  split
  · next request past outcome ht =>
    split
    · next r hr =>
      have hbehaves := hm.behaves _ (List.mem_of_getElem? ht)
      obtain ⟨hfits, hlock⟩ := hnext outcome r hr (hbehaves.ends rfl).fits
      have hbegin : (Task.begin r).lock? = m.lockAt i := by
        rw [lockAt_eq ht, hbehaves.lock?_of_done rfl]
        exact hlock
      refine hm.set ht hm.sound (Task.begin_behaves hfits) ?_
      rw [hbegin]
      exact hm.beside i
    · exact hm
  · exact hm

/-- A call of the host by one task leaves the locks of the others alone. -/
theorem advance [Host (StateM σ) Lock File] (hf : Host.Flocks directory sound held)
    (hm : m.Orderly directory sound held) (i : Nat) :
    (m.step (.advance i)).Orderly directory sound held := by
  simp only [step]
  split
  · next request past c next ht =>
    obtain ⟨hfits, horder, hnext⟩ := hm.behaves _ (List.mem_of_getElem? ht)
    have hbeside := hm.beside i
    rw [lockAt_eq ht] at hbeside
    obtain ⟨hsound, hafter, -⟩ := hf.perform hm.sound hbeside horder.1
    refine hm.set ht hsound ⟨hfits, hnext _⟩ ?_
    rw [Task.lock?, ownAfter_concat]
    exact hafter
  · exact hm

theorem step [Host (StateM σ) Lock File] (hf : Host.Flocks directory sound held)
    (hm : m.Orderly directory sound held) {event : Event} (hshares : event.Shares directory) :
    (m.step event).Orderly directory sound held := by
  cases event with
  | openStore settings flags =>
    refine hm.start ⟨?_, by rintro _ _ ⟨⟩, by rintro _ _ ⟨⟩⟩ rfl
    rintro _ _ ⟨⟩
    exact hshares
  | acquire path exclusive =>
    refine hm.start ⟨by rintro _ _ ⟨⟩, ?_, by rintro _ _ ⟨⟩⟩ rfl
    rintro _ _ ⟨⟩
    exact hshares
  | use i ops =>
    refine hm.resume ?_ i
    rintro (e | ⟨flags, s⟩ | l | _) r ⟨⟩ hfits
    refine ⟨⟨by rintro _ _ ⟨⟩, by rintro _ _ ⟨⟩, ?_⟩, rfl⟩
    rintro _ _ ⟨⟩
    exact hfits flags s rfl
  | letGo i =>
    refine hm.resume ?_ i
    rintro (e | ⟨flags, s⟩ | l | _) r ⟨⟩ hfits
    · refine ⟨⟨by rintro _ _ ⟨⟩, by rintro _ _ ⟨⟩, ?_⟩, rfl⟩
      rintro _ _ ⟨⟩
      exact hfits flags s rfl
    · exact ⟨⟨by rintro _ _ ⟨⟩, by rintro _ _ ⟨⟩, by rintro _ _ ⟨⟩⟩, rfl⟩
  | advance i => exact hm.advance hf i

theorem run [Host (StateM σ) Lock File] (hf : Host.Flocks directory sound held)
    (hm : m.Orderly directory sound held) {events : List Event}
    (hshared : ∀ event ∈ events, event.Shares directory) :
    (m.run events).Orderly directory sound held := by
  induction events generalizing m with
  | nil => exact hm
  | cons event events ih =>
    obtain ⟨hevent, hevents⟩ := List.forall_mem_cons.1 hshared
    exact ih (hm.step hf hevent) hevents

end Orderly

end State

end Sharing

end BootStore

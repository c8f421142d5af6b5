import BootStore.Proofs.Programs

/-!
# The use of locks

What the programs of a store do with its lock, for every answer that a host could give: they ask for
a lock in the one lock directory while they have none, and give back only what they have.
-/
namespace BootStore

variable {Lock File α : Type}

structure Hold (Lock : Type) where
  lock : Lock
  exclusive : Bool

def StoreLock.hold (l : StoreLock Lock) : Hold Lock := ⟨l.handle, l.exclusive⟩

/-- What is held after a reply, by what was held before: a lock from when it is granted until it is
given back. -/
def Reply.track (own : Option (Hold Lock)) : Reply Lock File → Option (Hold Lock)
  | ⟨.tryLock _ exclusive, .ok (some lock)⟩ => some ⟨lock, exclusive⟩
  | ⟨.unlock _, _⟩ => none
  | _ => own

def ownAfter (own : Option (Hold Lock)) (past : List (Reply Lock File)) : Option (Hold Lock) :=
  past.foldl Reply.track own

/-- Whether a call may be made by who holds this: a lock is asked for in the one directory and by
who has none, and is given back by who has it. -/
def HostCall.Permitted (directory : String) (own : Option (Hold Lock)) : HostCall Lock File → Prop
  | .makeDirectory path => path = directory
  | .tryLock path _ => path = Path.join directory StoreLock.fileName ∧ own = none
  | .unlock lock => ∃ exclusive, own = some ⟨lock, exclusive⟩
  | _ => True

/-- A call that is permitted, by who still has what it began with. -/
def HostCall.InOrder (directory : String) (own : Option (Hold Lock)) (past : List (Reply Lock File))
    (c : HostCall Lock File) : Prop :=
  c.Permitted directory (ownAfter own past) ∧ (own ≠ none → ownAfter own past = own)

section OwnAfter

variable {own held : Option (Hold Lock)} {past more : List (Reply Lock File)} {r : Reply Lock File}
  {c : HostCall Lock File} {directory : String}

theorem ownAfter_concat (own : Option (Hold Lock)) (past : List (Reply Lock File))
    (r : Reply Lock File) : ownAfter own (past ++ [r]) = r.track (ownAfter own past) := by
  rw [ownAfter, List.foldl_append]
  rfl

theorem Reply.track_of_device (hr : r.call.isDeviceCall = true) : r.track own = own := by
  obtain ⟨c, answer⟩ := r
  cases c with
  | makeDirectory path => cases hr
  | tryLock path exclusive => cases hr
  | unlock lock => cases hr
  | _ => rfl

theorem ownAfter_append_of_device (hmore : ∀ r ∈ more, r.call.isDeviceCall = true) :
    ownAfter own (past ++ more) = ownAfter own past := by
  induction more generalizing past with
  | nil => rw [List.append_nil]
  | cons r more ih =>
    obtain ⟨hr, hmore⟩ := List.forall_mem_cons.1 hmore
    rw [List.append_cons, ih hmore, ownAfter_concat, Reply.track_of_device hr]

theorem HostCall.permitted_of_device (hc : c.isDeviceCall = true) : c.Permitted directory own := by
  cases c with
  | makeDirectory path => cases hc
  | tryLock path exclusive => cases hc
  | unlock lock => cases hc
  | _ => trivial

theorem Program.Follows.of_device {p : Program Lock File α} {post : α → Prop}
    (hp : p.Satisfies HostCall.isDeviceCall post) (hheld : ownAfter own past = held)
    (hown : own ≠ none → held = own) :
    p.Follows (HostCall.InOrder directory own)
      (fun past' a => ownAfter own past' = held ∧ (∀ r ∈ past, r ∈ past') ∧ post a) past := by
  refine .of_satisfies hp ?_ ?_
  · intro more c hmore hc
    refine ⟨HostCall.permitted_of_device hc, ?_⟩
    rw [ownAfter_append_of_device hmore, hheld]
    exact hown
  · intro more a hmore ha
    refine ⟨(ownAfter_append_of_device hmore).trans hheld, ?_, ha⟩
    exact fun r hr => List.mem_append_left _ hr

end OwnAfter

/-- Nothing has been done that does more than lead to a lock, and none was granted. -/
structure Approaching (past : List (Reply Lock File)) : Prop where
  free : ownAfter none past = none
  calls : ∀ r ∈ past, r.call.isApproach = true

/-- Why an opening or a locking is turned away before it has the lock, by the replies that it
got. -/
inductive TurnedAway (settings : Settings) (exclusive : Bool) (past : List (Reply Lock File)) :
    StoreError → Prop where
  | absent : (∀ path ∈ settings.devices, ⟨.pathExists path, false⟩ ∈ past) →
      TurnedAway settings exclusive past (.deviceNotFound settings.devices)
  | unmade {e : Errno} : ⟨.makeDirectory settings.lockDirectory, .error e⟩ ∈ past →
      e ≠ .alreadyExists → TurnedAway settings exclusive past (.io (.os e))
  | unopened {e : Errno} :
      ⟨.tryLock (Path.join settings.lockDirectory StoreLock.fileName) exclusive, .error e⟩ ∈ past →
      TurnedAway settings exclusive past (.io (.os e))
  | contended :
      ⟨.tryLock (Path.join settings.lockDirectory StoreLock.fileName) exclusive, .ok none⟩ ∈ past →
      TurnedAway settings exclusive past
        (.lockContended (Path.join settings.lockDirectory StoreLock.fileName))

def Granted (settings : Settings) (exclusive : Bool) (past : List (Reply Lock File)) : Prop :=
  ∃ lock, ⟨.tryLock (Path.join settings.lockDirectory StoreLock.fileName) exclusive,
    .ok (some lock)⟩ ∈ past

section Approaching

variable {past : List (Reply Lock File)} {r : Reply Lock File} {settings : Settings}

theorem Approaching.nil : Approaching ([] : List (Reply Lock File)) := ⟨rfl, nofun⟩

theorem Approaching.concat (hpast : Approaching past) (hr : r.call.isApproach = true)
    (hfree : r.track none = none) : Approaching (past ++ [r]) := by
  constructor
  · rw [ownAfter_concat, hpast.free, hfree]
  · intro r' hr'
    rcases List.mem_append.1 hr' with hr' | hr'
    · exact hpast.calls r' hr'
    · rw [List.mem_singleton.1 hr']
      exact hr

theorem Approaching.inOrder {c : HostCall Lock File} {directory : String}
    (hpast : Approaching past) (hc : c.Permitted directory none) :
    HostCall.InOrder directory none past c := by
  refine ⟨?_, fun h => absurd rfl h⟩
  rw [hpast.free]
  exact hc

theorem Store.locate?_follows (devices : List String) (directory : String)
    (hpast : Approaching past) :
    (locate? devices : Program Lock File _).Follows (HostCall.InOrder directory none)
      (fun past' found => Approaching past' ∧ (∀ r ∈ past, r ∈ past') ∧
        (found = none → ∀ path ∈ devices, ⟨.pathExists path, false⟩ ∈ past')) past := by
  induction devices generalizing past with
  | nil => exact ⟨hpast, fun r hr => hr, fun _ => nofun⟩
  | cons path rest ih =>
    refine ⟨hpast.inOrder trivial, fun answer => ?_⟩
    have hnext := hpast.concat (r := ⟨.pathExists path, answer⟩) rfl rfl
    cases answer with
    | true => exact ⟨hnext, fun r hr => List.mem_append_left _ hr, nofun⟩
    | false =>
      refine (ih hnext).imp ?_
      rintro past' found ⟨hpast', hkept, hnone⟩
      refine ⟨hpast', fun r hr => hkept r (List.mem_append_left _ hr), ?_⟩
      intro hfound path' hpath'
      rcases List.mem_cons.1 hpath' with rfl | hpath'
      · exact hkept _ (List.mem_append_right _ List.mem_cons_self)
      · exact hnone hfound path' hpath'

theorem Store.locate_follows (settings : Settings) (exclusive : Bool) (hpast : Approaching past) :
    (locate settings.devices : Program Lock File _).Follows
      (HostCall.InOrder settings.lockDirectory none)
      (fun past' found => Approaching past' ∧
        ∀ e, found = .error e → TurnedAway settings exclusive past' e) past := by
  refine (locate?_follows settings.devices settings.lockDirectory hpast).bind ?_
  rintro past' found ⟨hpast', -, hnone⟩
  cases found with
  | some path => exact ⟨hpast', nofun⟩
  | none =>
    refine ⟨hpast', ?_⟩
    rintro _ ⟨⟩
    exact .absent (hnone rfl)

inductive StoreLock.Acquired (settings : Settings) (exclusive : Bool)
    (past : List (Reply Lock File)) : Except StoreError (StoreLock Lock) → Prop where
  | turnedAway {e : StoreError} : Approaching past → TurnedAway settings exclusive past e →
      Acquired settings exclusive past (.error e)
  | acquired {l : StoreLock Lock} : l.exclusive = exclusive → Granted settings exclusive past →
      ownAfter none past = some l.hold → Acquired settings exclusive past (.ok l)

theorem StoreLock.acquire_follows (settings : Settings) (exclusive : Bool)
    (hpast : Approaching past) :
    (acquire settings.lockDirectory exclusive : Program Lock File _).Follows
      (HostCall.InOrder settings.lockDirectory none) (Acquired settings exclusive) past := by
  have hlast : ∀ (past : List (Reply Lock File)) r, r ∈ past ++ [r] :=
    fun _ _ => List.mem_append_right _ List.mem_cons_self
  unfold acquire
  extract_lets path lock
  have hask : ∀ past, Approaching past → Program.Follows
      (HostCall.InOrder settings.lockDirectory none) (Acquired settings exclusive) past lock := by
    intro past hpast
    refine ⟨hpast.inOrder ⟨rfl, rfl⟩, fun answer => ?_⟩
    rcases answer with e | handle | handle
    · exact .turnedAway (hpast.concat rfl rfl) (.unopened (hlast _ _))
    · exact .turnedAway (hpast.concat rfl rfl) (.contended (hlast _ _))
    · exact .acquired rfl ⟨handle, hlast _ _⟩ (ownAfter_concat _ _ _)
  refine ⟨hpast.inOrder rfl, fun answer => ?_⟩
  have hnext := hpast.concat (r := ⟨.makeDirectory settings.lockDirectory, answer⟩) rfl rfl
  rcases answer with e | ⟨⟩
  · cases e with
    | alreadyExists => exact hask _ hnext
    | _ => exact .turnedAway hnext (.unmade (hlast _ _) nofun)
  · exact hask _ hnext

end Approaching

def WriteSwitch.SparesLocks (switch : WriteSwitch (Program Lock File)) : Prop :=
  ∀ device writable,
    (switch.setWritable device writable).Satisfies HostCall.isDeviceCall fun _ => True

theorem WriteProtection.switch_sparesLocks (protection : WriteProtection) :
    (protection.switch : WriteSwitch (Program Lock File)).SparesLocks := by
  intro device writable
  cases protection with
  | disabled => trivial
  | sysfs root =>
    show Program.Satisfies _ _ ((WriteSwitch.sysfs root).setWritable device writable)
    unfold WriteSwitch.sysfs
    cases hdirectory : WriteSwitch.directory? root device with
    | none =>
      simp only [hdirectory]
      trivial
    | some directory =>
      simp only [hdirectory]
      have hstate : (WriteSwitch.isWritable? directory : Program Lock File _).Satisfies
          HostCall.isDeviceCall fun _ => True := by
        refine ⟨rfl, fun answer => ?_⟩
        rcases answer with e | ⟨⟩ | ⟨state, rest⟩ <;> trivial
      refine hstate.bind ?_
      rintro state -
      cases state with
      | none => trivial
      | some now =>
        by_cases hsame : now = writable
        · simp only [if_pos hsame]
          trivial
        · simp only [if_neg hsame]
          exact ⟨rfl, fun _ => trivial⟩

namespace Store

/-- What an opening with these flags sees to: the lock is exclusive for a writer, a reader may not
write, and the guard sets a switch and nothing else. -/
structure Fits (flags : OpenFlags) (s : Store (Program Lock File) Lock File) : Prop where
  exclusive : s.lock.exclusive = !flags.readOnly
  reader : flags.readOnly = true → s.session.isReadOnly = true
  guard : ∀ g, s.guard = some g → g.switch.SparesLocks

theorem restore_satisfies {g : WriteGuard (Program Lock File)} (hg : g.switch.SparesLocks) :
    g.restore.Satisfies HostCall.isDeviceCall fun after => after.switch.SparesLocks := by
  unfold WriteGuard.restore
  split
  · exact (hg g.device false).bind fun _ _ => hg
  · exact hg

theorem dropGuard_satisfies {guard : Option (WriteGuard (Program Lock File))}
    (hguard : ∀ g, guard = some g → g.switch.SparesLocks) :
    (dropGuard guard).Satisfies HostCall.isDeviceCall fun _ => True := by
  cases guard with
  | none => trivial
  | some g => exact (restore_satisfies (hguard g rfl)).bind fun _ _ => trivial

theorem releaseGuard_satisfies {guard : Option (WriteGuard (Program Lock File))}
    (hguard : ∀ g, guard = some g → g.switch.SparesLocks) :
    (releaseGuard guard).Satisfies HostCall.isDeviceCall fun _ => True := by
  cases guard with
  | none => trivial
  | some g =>
    refine (restore_satisfies (hguard g rfl)).bind ?_
    intro after hafter
    exact (restore_satisfies hafter).bind fun _ _ => trivial

theorem beginOn_satisfies (path : String) (l : Layout) (v : Bool) {flags : OpenFlags}
    (hcheck : flags.check = .ok ()) :
    (beginOn path l v flags : Program Lock File _).Satisfies HostCall.isDeviceCall
      fun begun => ∀ file s, begun = .ok (file, s) → flags.readOnly = true →
        s.isReadOnly = true := by
  have hopen : (Host.openDevice path flags.readOnly : Program Lock File _).Satisfies
      HostCall.isDeviceCall fun _ => True :=
    ⟨rfl, fun _ => trivial⟩
  refine hopen.bind ?_
  rintro opened -
  cases opened with
  | error e => exact nofun
  | ok file =>
    have hcalls : ((Session.begin l v flags : ReaderT File (Program Lock File) _) file).Satisfies
        HostCall.isDeviceCall fun _ => True :=
      Program.deviceCalls_inherited.begin l v flags file
    have hresult := hcalls.and (Program.judges.begin_result hcheck file)
    refine Program.Satisfies.bind hresult ?_
    rintro (e | s) ⟨-, hs, -⟩
    · exact ⟨rfl, fun _ => nofun⟩
    · rintro _ _ ⟨⟩
      exact hs s rfl

theorem update_satisfies (s : Store (Program Lock File) Lock File) (ops : List Operation) :
    (s.update (Operation.runAll · ops)).Satisfies HostCall.isDeviceCall fun out =>
      ∃ session, out.2 = { s with session } ∧ session.isReadOnly = s.session.isReadOnly := by
  have hcalls : ((Operation.runAll s.session ops : ReaderT File (Program Lock File) _)
      s.file).Satisfies HostCall.isDeviceCall fun _ => True :=
    Program.deviceCalls_inherited.runAll s.session ops s.file
  have hmode := hcalls.and (Program.judges.mode_runAll s.session ops s.file)
  refine Program.Satisfies.bind hmode ?_
  rintro ⟨answers, session⟩ ⟨-, hsession⟩
  exact ⟨session, rfl, congrArg (fun mode : AccessMode => mode != .writable) hsession⟩

end Store

theorem Granted.mono {settings : Settings} {exclusive : Bool} {past more : List (Reply Lock File)}
    (h : Granted settings exclusive past) (hmore : ∀ r ∈ past, r ∈ more) :
    Granted settings exclusive more := by
  obtain ⟨lock, hlock⟩ := h
  exact ⟨lock, hmore _ hlock⟩

theorem StoreLock.release_follows {directory : String} {own : Option (Hold Lock)}
    {past : List (Reply Lock File)} (l : StoreLock Lock) (hheld : ownAfter own past = some l.hold)
    (hown : own ≠ none → ownAfter own past = own) :
    (l.release : Program Lock File Unit).Follows (HostCall.InOrder directory own)
      (fun past' _ => ownAfter own past' = none ∧ ∀ r ∈ past, r ∈ past') past :=
  ⟨⟨⟨l.exclusive, hheld⟩, hown⟩, fun _ =>
    ⟨ownAfter_concat _ _ _, fun _ hr => List.mem_append_left _ hr⟩⟩

namespace Store

variable {flags : OpenFlags} {settings : Settings}

/-- How an opening may end. A store that it gives keeps the lock that was granted; an opening that
fails after that has given it back. -/
inductive Opened (settings : Settings) (flags : OpenFlags) (past : List (Reply Lock File)) :
    Except StoreError (Store (Program Lock File) Lock File) → Prop where
  | invalid {e : StoreError} : flags.check = .error e ∨ settings.layout = .error e → past = [] →
      Opened settings flags past (.error e)
  | turnedAway {e : StoreError} : Approaching past →
      TurnedAway settings (!flags.readOnly) past e → Opened settings flags past (.error e)
  | failed {e : StoreError} : Granted settings (!flags.readOnly) past →
      ownAfter none past = none → Opened settings flags past (.error e)
  | opened {s : Store (Program Lock File) Lock File} : Granted settings (!flags.readOnly) past →
      ownAfter none past = some s.lock.hold → s.Fits flags → Opened settings flags past (.ok s)

theorem Opened.granted_or_turnedAway {l : Layout} {past : List (Reply Lock File)}
    {opened : Except StoreError (Store (Program Lock File) Lock File)}
    (h : Opened settings flags past opened) (hcheck : flags.check = .ok ())
    (hl : settings.layout = .ok l) :
    Granted settings (!flags.readOnly) past ∨
      ∃ e, opened = .error e ∧ TurnedAway settings (!flags.readOnly) past e ∧
        ∀ r ∈ past, r.call.isApproach = true := by
  cases h with
  | invalid hinvalid =>
    rw [hcheck, hl] at hinvalid
    rcases hinvalid with h | h <;> cases h
  | turnedAway hpast haway => exact Or.inr ⟨_, rfl, haway, hpast.calls⟩
  | failed hgranted => exact Or.inl hgranted
  | opened hgranted => exact Or.inl hgranted

theorem begun_follows (path : String) (l : Layout) (v : Bool) (hcheck : flags.check = .ok ())
    {lock : StoreLock Lock} {guard : Option (WriteGuard (Program Lock File))}
    (hguard : ∀ g, guard = some g → g.switch.SparesLocks)
    (hexclusive : lock.exclusive = !flags.readOnly) {past : List (Reply Lock File)}
    (hgranted : Granted settings (!flags.readOnly) past)
    (hheld : ownAfter none past = some lock.hold) :
    (do
      match ← beginOn path l v flags with
      | .error e =>
        dropGuard guard
        lock.release
        return .error e
      | .ok (file, session) =>
        if session.isReadOnly then
          releaseGuard guard
          return .ok { session, file, lock, guard := none }
        else return .ok { session, file, lock, guard } : Program Lock File _).Follows
      (HostCall.InOrder settings.lockDirectory none) (Opened settings flags) past := by
  -- until the lock is released, all calls are about the device and its switch
  have hidle : (none : Option (Hold Lock)) ≠ none → some lock.hold = none := fun h => absurd rfl h
  refine (Program.Follows.of_device (beginOn_satisfies path l v hcheck) hheld hidle).bind ?_
  rintro past₁ begun ⟨hheld, hkept, hreader⟩
  have hgranted := hgranted.mono hkept
  cases begun with
  | error e =>
    refine (Program.Follows.of_device (dropGuard_satisfies hguard) hheld hidle).bind ?_
    rintro past₂ - ⟨hheld, hkept, -⟩
    refine (lock.release_follows hheld fun h => absurd rfl h).bind ?_
    rintro past₃ - ⟨hfree, hkept'⟩
    exact .failed ((hgranted.mono hkept).mono hkept') hfree
  | ok begun =>
    obtain ⟨file, session⟩ := begun
    cases hmode : session.isReadOnly with
    | true =>
      simp only [hmode, if_true]
      refine (Program.Follows.of_device (releaseGuard_satisfies hguard) hheld hidle).bind ?_
      rintro past₂ - ⟨hheld, hkept, -⟩
      exact .opened (hgranted.mono hkept) hheld ⟨hexclusive, fun _ => hmode, nofun⟩
    | false =>
      simp only [hmode, Bool.false_eq_true, if_false]
      exact .opened hgranted hheld ⟨hexclusive, hreader file session rfl, hguard⟩

/-- An opening holds a lock from when it is granted on, and gives it back if it fails. -/
theorem openConfigured_follows (settings : Settings) (flags : OpenFlags) :
    (openConfigured settings flags : Program Lock File _).Follows
      (HostCall.InOrder settings.lockDirectory none) (Opened settings flags) [] := by
  unfold openConfigured openWith
  cases hcheck : flags.check with
  | error e => exact .invalid (Or.inl hcheck) rfl
  | ok =>
  cases hl : settings.layout with
  | error e => exact .invalid (Or.inr hl) rfl
  | ok l =>
  refine (locate_follows settings (!flags.readOnly) .nil).bind ?_
  rintro past₁ found ⟨hpast, haway⟩
  cases found with
  | error e => exact .turnedAway hpast (haway e rfl)
  | ok path =>
  refine (StoreLock.acquire_follows settings (!flags.readOnly) hpast).bind ?_
  rintro past₂ _ (⟨hpast, haway⟩ | ⟨hexclusive, hgranted, hheld⟩)
  · exact .turnedAway hpast haway
  by_cases hreader : flags.readOnly = true
  · simp only [if_pos hreader]
    exact begun_follows path l _ hcheck (by rintro _ ⟨⟩) hexclusive hgranted hheld
  · simp only [if_neg hreader]
    have hset : (settings.writeProtection.switch : WriteSwitch (Program Lock File)).SparesLocks :=
      settings.writeProtection.switch_sparesLocks
    have henable : (WriteGuard.enable settings.writeProtection.switch path :
        Program Lock File _).Satisfies HostCall.isDeviceCall fun g => g.switch.SparesLocks :=
      Program.Satisfies.bind (hset path true) fun _ _ => hset
    have henabled : (some <$> WriteGuard.enable settings.writeProtection.switch path :
        Program Lock File _).Satisfies HostCall.isDeviceCall
          fun guard => ∀ g, guard = some g → g.switch.SparesLocks := by
      refine Program.Satisfies.bind henable ?_
      rintro g hg _ ⟨⟩
      exact hg
    refine (Program.Follows.of_device henabled hheld fun h => absurd rfl h).bind ?_
    rintro past₃ guard ⟨hheld, hkept, hguard⟩
    exact begun_follows path l _ hcheck hguard hexclusive (hgranted.mono hkept) hheld

theorem close_follows {s : Store (Program Lock File) Lock File} (hs : s.Fits flags)
    (directory : String) :
    s.close.Follows (HostCall.InOrder directory (some s.lock.hold))
      (fun past _ => ownAfter (some s.lock.hold) past = none) [] := by
  have hclosed : (Host.closeDevice s.file : Program Lock File Unit).Satisfies
      HostCall.isDeviceCall fun _ => True :=
    ⟨rfl, fun _ => trivial⟩
  refine (Program.Follows.of_device hclosed rfl fun _ => rfl).bind ?_
  rintro past₁ - ⟨hheld, -⟩
  refine (Program.Follows.of_device (dropGuard_satisfies hs.guard) hheld fun _ => rfl).bind ?_
  rintro past₂ - ⟨hheld, -⟩
  exact (s.lock.release_follows hheld fun _ => hheld).imp fun _ _ h => h.1

end Store

end BootStore

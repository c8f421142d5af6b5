import BootStore.Proofs.Watching

/-!
# Write protection

An opening that takes the lock to write asks for the device to be writable before it opens it, and
the device is asked to be protected again before the lock is given back
(`write_protection_brackets`).
-/
namespace BootStore

theorem Settings.layout_error {settings : Settings} {e : StoreError}
    (h : settings.layout = .error e) : ∃ cause, e = .invalidArgument cause := by
  unfold Settings.layout at h
  simp only at h
  split at h
  · exact ⟨_, (Except.error.inj h).symm⟩
  · split at h
    · exact ⟨_, (Except.error.inj h).symm⟩
    · split at h
      · exact ⟨_, (Except.error.inj h).symm⟩
      · cases h

def StoreError.isRefusal : StoreError → Bool
  | .invalidArgument _ | .deviceNotFound _ | .lockContended _ => true
  | _ => false

/-- A way of judging actions by their results, whatever the calls in them answer. -/
structure Judges {m : Type → Type} [Monad m] (J : (α : Type) → m α → (α → Prop) → Prop) :
    Prop where
  pure : ∀ {α : Type} {a : α} {post : α → Prop}, post a → J α (Pure.pure a) post
  bind : ∀ {α β : Type} {x : m α} {f : α → m β} {mid : α → Prop} {post : β → Prop},
    J α x mid → (∀ a, mid a → J β (f a) post) → J β (x >>= f) post
  /-- What comes first may not matter. -/
  skip : ∀ {α β : Type} {x : m α} {f : α → m β} {post : β → Prop},
    (∀ a, J β (f a) post) → J β (x >>= f) post
  imp : ∀ {α : Type} {x : m α} {post more : α → Prop}, J α x post → (∀ a, post a → more a) →
    J α x more

theorem Session.isReadOnly_of_ofSurvey {l : Layout} {survey : Survey} {s : Session}
    (hs : ofSurvey l true survey = some s) : s.isReadOnly = true :=
  (ofSurvey_begun hs).isReadOnly_iff.2 (Or.inl rfl)

namespace Judges

variable {m : Type → Type} [Monad m] [BlockDevice m]
  {J : (α : Type) → m α → (α → Prop) → Prop} (hJ : Judges J)

include hJ

theorem establish_notRefused (l : Layout) (vs : Variables) :
    J _ (Session.establish l vs) fun made => ∀ e, made = .error e → e.isRefusal = false := by
  refine hJ.skip ?_
  intro blanked
  cases blanked with
  | error e => exact hJ.pure (by rintro _ ⟨⟩; rfl)
  | ok =>
    cases Session.firstUpdate l vs with
    | error e => exact hJ.pure (by rintro _ ⟨⟩; rfl)
    | ok u =>
      refine hJ.skip ?_
      intro written
      cases written with
      | error e => exact hJ.pure (by rintro _ ⟨⟩; rfl)
      | ok => exact hJ.pure (by rintro _ ⟨⟩)

theorem begin_result {l : Layout} {v : Bool} {flags : OpenFlags} (hcheck : flags.check = .ok ()) :
    J _ (Session.begin l v flags) fun begun =>
      (∀ s, begun = .ok s → flags.readOnly = true → s.isReadOnly = true) ∧
        ∀ e, begun = .error e → e.isRefusal = false := by
  refine hJ.skip ?_
  intro survey
  obtain ⟨readOnly, forceInit⟩ := flags
  have hwriter : ∀ vs, J _ (Session.establish l vs) fun begun =>
      (∀ s, begun = .ok s → false = true → s.isReadOnly = true) ∧
        ∀ e, begun = .error e → e.isRefusal = false :=
    fun vs => hJ.imp (hJ.establish_notRefused l vs) fun _ h => ⟨fun _ _ => nofun, h⟩
  cases readOnly with
  | false =>
    cases Session.ofSurvey l false survey with
    | none => exact hwriter _
    | some s =>
      cases forceInit with
      | false => exact hJ.pure ⟨fun _ _ => nofun, nofun⟩
      | true => exact hwriter _
  | true =>
    have hkept : forceInit = false := by
      cases forceInit with
      | false => rfl
      | true => cases hcheck
    subst hkept
    cases hs : Session.ofSurvey l true survey with
    | none =>
      refine hJ.pure ⟨nofun, ?_⟩
      rintro _ ⟨⟩
      rfl
    | some s =>
      refine hJ.pure ⟨?_, nofun⟩
      rintro _ ⟨⟩ -
      exact Session.isReadOnly_of_ofSurvey hs

theorem mode_commit (s : Session) : J _ s.commit fun out => out.2.mode = s.mode := by
  unfold Session.commit
  split
  · exact hJ.pure rfl
  · cases s.nextUpdate s.header with
    | error e => exact hJ.pure rfl
    | ok u =>
      refine hJ.skip ?_
      intro written
      cases written <;> exact hJ.pure rfl

theorem mode_commitHeader (s : Session) (h : Header) :
    J _ (s.commitHeader h) fun out => out.2.mode = s.mode := by
  unfold Session.commitHeader
  split
  · exact hJ.pure rfl
  · refine hJ.bind (hJ.mode_commit { s with header := h }) ?_
    rintro ⟨result, after⟩ hmode
    cases result <;> exact hJ.pure hmode

theorem mode_run (s : Session) (op : Operation) :
    J _ (op.run s) fun out => out.2.mode = s.mode := by
  have hedit : ∀ name value, (Operation.edit s (s.set name value)).2.mode = s.mode := by
    intro name value
    obtain ⟨vs, hvs⟩ := Operation.edit_keeps s name value
    rw [hvs]
  have hmark : ∀ (h : Header) (n : UInt8),
      J _ (s.commitHeader h >>= fun out => return (out.1.map fun _ => n, out.2))
        fun out => out.2.mode = s.mode := by
    intro h n
    refine hJ.bind (hJ.mode_commitHeader s h) ?_
    intro out hout
    exact hJ.pure hout
  cases op with
  | set name value => exact hJ.pure (hedit name value)
  | delete name => exact hJ.pure (hedit name none)
  | commit => exact hJ.mode_commit s
  | markInProgress => exact hJ.bind (hmark _ _) fun _ hout => hJ.pure hout
  | markSuccessful => exact hJ.bind (hmark _ _) fun _ hout => hJ.pure hout

theorem mode_runAll (s : Session) (ops : List Operation) :
    J _ (Operation.runAll s ops) fun out => out.2.mode = s.mode := by
  induction ops generalizing s with
  | nil => exact hJ.pure rfl
  | cons op ops ih =>
    refine hJ.bind (hJ.mode_run s op) ?_
    intro answered hmode
    refine hJ.bind (ih answered.2) ?_
    intro rest hrest
    exact hJ.pure (hrest.trans hmode)

end Judges

theorem Yields.judges {σ File : Type} : Judges (m := ReaderT File (StateM σ))
    fun _ action post => ∀ file w, Yields (action file) w fun a _ => post a where
  pure h _ _ := h
  bind h hnext file w := Yields.bindOn (h file w) fun a w' ha => hnext a ha file w'
  skip hnext file _ := Yields.skipOn fun a w' => hnext a file w'
  imp h himp file w := (h file w).imp fun a _ ha => himp a ha

/-- The guard has its device still to protect, by a switch that is watched. -/
structure WriteGuard.Pending {σ Lock File : Type} (g : WriteGuard (StateM (Watched σ Lock File))) :
    Prop where
  active : g.active = true
  watched : ∃ switch : WriteSwitch (StateM σ), g.switch = switch.watched

namespace Store

variable {σ Lock File : Type} {w : Watched σ Lock File} {log : List (Deed Lock File)}

def requestsOf (guard : Option (WriteGuard (StateM (Watched σ Lock File)))) (writable : Bool) :
    List (Deed Lock File) :=
  match guard with
  | none => []
  | some g => [.requested g.device writable]

theorem lastRequest_requestsOf (device : String)
    (guard : Option (WriteGuard (StateM (Watched σ Lock File)))) (writable : Bool) :
    Deed.lastRequest device (requestsOf guard writable) =
      if guard.any (·.device == device) then some writable else none := by
  cases guard with
  | none => rfl
  | some g => simp [requestsOf, Deed.requestFor?]

/-- Requests that are bracketed leave the device as protected as it was. -/
theorem lastRequest_bracket {device : String} {log accesses : List (Deed Lock File)} {lock : Lock}
    {guard : Option (WriteGuard (StateM (Watched σ Lock File)))}
    (haccess : ∀ x ∈ accesses, x.isAccess = true)
    (hlast : Deed.lastRequest device (log ++ [.locked lock] ++
      (requestsOf guard true ++ accesses ++ requestsOf guard false)) = some true) :
    Deed.lastRequest device log = some true := by
  by_cases hguard : guard.any (·.device == device) = true
  · simp [lastRequest_requestsOf, hguard] at hlast
  · simpa [lastRequest_requestsOf, hguard, Deed.lastRequest_of_accesses device haccess,
      Deed.requestFor?] using hlast

theorem enable_deeds (switch : WriteSwitch (StateM σ)) (path : String) (hw : w.log = log) :
    Yields (some <$> WriteGuard.enable switch.watched path) w fun guard w' =>
      guard = some ⟨switch.watched, path, true⟩ ∧ w'.log = log ++ requestsOf guard true :=
  ⟨rfl, congrArg (· ++ _) hw⟩

theorem dropGuard_deeds {guard : Option (WriteGuard (StateM (Watched σ Lock File)))}
    (hguard : ∀ g, guard = some g → g.Pending) (hw : w.log = log) :
    Yields (dropGuard guard) w fun _ w' => w'.log = log ++ requestsOf guard false := by
  cases guard with
  | none => exact hw.trans (List.append_nil _).symm
  | some g =>
    obtain ⟨hactive, switch, hswitch⟩ := hguard g rfl
    show Yields g.drop w _
    rw [WriteGuard.drop_of_active hactive, hswitch]
    exact congrArg (· ++ _) hw

theorem releaseGuard_deeds {guard : Option (WriteGuard (StateM (Watched σ Lock File)))}
    (hguard : ∀ g, guard = some g → g.Pending) (hw : w.log = log) :
    Yields (releaseGuard guard) w fun _ w' => w'.log = log ++ requestsOf guard false := by
  rw [releaseGuard_eq]
  exact dropGuard_deeds hguard hw

variable [Host (StateM σ) Lock File]

theorem release_deeds (lock : StoreLock Lock) (hw : w.log = log) :
    Yields (lock.release : StateM (Watched σ Lock File) Unit) w fun _ w' =>
      w'.log = log ++ [.unlocked lock.handle] :=
  congrArg (· ++ _) hw

theorem beginOn_result {path : String} {l : Layout} {v : Bool} {flags : OpenFlags}
    (hcheck : flags.check = .ok ()) :
    Yields (beginOn path l v flags : StateM (Watched σ Lock File) _) w fun begun _ =>
      (∀ file s, begun = .ok (file, s) → flags.readOnly = true → s.isReadOnly = true) ∧
        ∀ e, begun = .error e → e.isRefusal = false := by
  unfold beginOn
  refine Yields.bind (Yields.self _ w) ?_
  rintro opened w₁ -
  cases opened with
  | error e =>
    refine ⟨nofun, ?_⟩
    rintro _ ⟨⟩
    rfl
  | ok file =>
    refine (Yields.judges.begin_result hcheck file w₁).bind ?_
    rintro begun w₂ ⟨hreader, hfailed⟩
    cases begun with
    | error e =>
      refine ⟨nofun, ?_⟩
      rintro _ ⟨⟩
      exact hfailed e rfl
    | ok session =>
      refine ⟨?_, nofun⟩
      rintro _ _ ⟨⟩
      exact hreader session rfl

/-- Why an opening is refused before it holds the lock. -/
inductive Refusal (settings : Settings) (flags : OpenFlags) (w : Watched σ Lock File) :
    StoreError → Prop where
  | argument {cause : BadArgument} : flags.check = .error (.invalidArgument cause) ∨
      flags.check = .ok () ∧ settings.layout = .error (.invalidArgument cause) →
      Refusal settings flags w (.invalidArgument cause)
  | device : flags.check = .ok () → settings.layout.toOption.isSome = true →
      ((locate settings.devices : StateM (Watched σ Lock File) _) w).1 =
        .error (.deviceNotFound settings.devices) →
      Refusal settings flags w (.deviceNotFound settings.devices)
  | lock {path : String} {w' : Watched σ Lock File} {e : StoreError} :
      (locate settings.devices : StateM (Watched σ Lock File) _) w = (.ok path, w') →
      ((StoreLock.acquire settings.lockDirectory !flags.readOnly :
        StateM (Watched σ Lock File) _) w').1 = .error e → Refusal settings flags w e

/-- What an opening that holds the lock notes from then on, by how it ends. The requests of the
guard that it took stand around the accesses to the device, or the store that it gives keeps the
guard. -/
inductive Bracket (guard : Option (WriteGuard (StateM (Watched σ Lock File)))) (lock : Lock)
    (accesses : List (Deed Lock File)) :
    Except StoreError (Store (StateM (Watched σ Lock File)) Lock File) →
      List (Deed Lock File) → Prop where
  | failed {e : StoreError} : e.isRefusal = false →
      Bracket guard lock accesses (.error e)
        (requestsOf guard true ++ accesses ++ requestsOf guard false ++ [.unlocked lock])
  | closed {s : Store (StateM (Watched σ Lock File)) Lock File} : s.lock.handle = lock →
      s.session.isReadOnly = true → s.guard = none →
      Bracket guard lock accesses (.ok s)
        (requestsOf guard true ++ accesses ++ requestsOf guard false)
  | writable {s : Store (StateM (Watched σ Lock File)) Lock File} : s.lock.handle = lock →
      s.session.isReadOnly = false → s.guard = guard → guard ≠ none →
      Bracket guard lock accesses (.ok s) (requestsOf guard true ++ accesses)

theorem begun_deeds (path : String) (l : Layout) (v : Bool) {flags : OpenFlags}
    (hcheck : flags.check = .ok ()) (lock : StoreLock Lock)
    {guard : Option (WriteGuard (StateM (Watched σ Lock File)))}
    (hguard : ∀ g, guard = some g → g.Pending) (hreader : guard = none → flags.readOnly = true)
    (hw : w.log = log ++ requestsOf guard true) :
    Yields (do
      match ← beginOn path l v flags with
      | .error e =>
        dropGuard guard
        lock.release
        return .error e
      | .ok (file, session) =>
        if session.isReadOnly then
          releaseGuard guard
          return .ok { session, file, lock, guard := none }
        else return .ok { session, file, lock, guard } : StateM (Watched σ Lock File) _) w
      fun opened w' => ∃ accesses deeds, w'.log = log ++ deeds ∧
        (∀ x ∈ accesses, x.isAccess = true) ∧ Bracket guard lock.handle accesses opened deeds := by
  refine ((beginOn_accessing path l v flags w).and (beginOn_result hcheck)).bind ?_
  rintro begun w₁ ⟨⟨accesses, hw₁, haccess⟩, hclosed, hfailed⟩
  rw [hw] at hw₁
  cases begun with
  | error e =>
    refine (dropGuard_deeds hguard hw₁).bind ?_
    rintro - w₂ hw₂
    refine (release_deeds lock hw₂).bind ?_
    rintro - w₃ hw₃
    refine ⟨accesses, _, hw₃.trans ?_, haccess, .failed (hfailed e rfl)⟩
    simp only [List.append_assoc]
  | ok begun =>
    obtain ⟨file, session⟩ := begun
    cases hmode : session.isReadOnly with
    | true =>
      simp only [hmode, if_true]
      refine (releaseGuard_deeds hguard hw₁).bind ?_
      rintro - w₂ hw₂
      refine ⟨accesses, _, hw₂.trans ?_, haccess, .closed rfl hmode rfl⟩
      simp only [List.append_assoc]
    | false =>
      simp only [hmode, Bool.false_eq_true, if_false]
      refine ⟨accesses, _, hw₁.trans ?_, haccess, .writable rfl hmode rfl ?_⟩
      · rw [List.append_assoc]
      · intro hnone
        rw [hclosed file session rfl (hreader hnone)] at hmode
        cases hmode

/-- What an opening from `w` on may come to: it is refused and notes nothing, or it takes the lock,
and the guard of a writer on the device that was located, and its requests are bracketed. -/
def OpensBracketed (switch : WriteSwitch (StateM σ)) (settings : Settings) (flags : OpenFlags)
    (w : Watched σ Lock File)
    (opened : Except StoreError (Store (StateM (Watched σ Lock File)) Lock File))
    (w' : Watched σ Lock File) : Prop :=
  (∃ e, opened = .error e ∧ Refusal settings flags w e ∧ w'.log = w.log) ∨
  ∃ path lock guard accesses deeds,
    ((locate settings.devices : StateM (Watched σ Lock File) _) w).1 = .ok path ∧
    guard = (if flags.readOnly then none else some ⟨switch.watched, path, true⟩) ∧
    w'.log = w.log ++ [.locked lock] ++ deeds ∧ (∀ x ∈ accesses, x.isAccess = true) ∧
    Bracket guard lock accesses opened deeds

/-- Whatever operations are called on a store from then on, they access its device file alone, and
not even that if the session may not write; closing it lets go of the device file, asks for what its
guard owes and gives the lock back. -/
def ClosesBracketed (s : Store (StateM (Watched σ Lock File)) Lock File) : Prop :=
  ∀ (ops : List Operation) (w : Watched σ Lock File),
    let used := (s.update (Operation.runAll · ops) : StateM (Watched σ Lock File) _) w
    ∃ accesses, (∀ x ∈ accesses, x.isAccess = true) ∧
      (s.session.isReadOnly = true → accesses = []) ∧
      ((used.1.2.close : StateM (Watched σ Lock File) _) used.2).2.log = w.log ++ (accesses ++
        [.closed s.file] ++ requestsOf s.guard false ++ [.unlocked s.lock.handle])

theorem openWith_deeds (switch : WriteSwitch (StateM σ)) (settings : Settings) (flags : OpenFlags)
    (w : Watched σ Lock File) :
    Yields (openWith switch.watched settings flags) w (OpensBracketed switch settings flags w) := by
  unfold openWith
  cases hcheck : flags.check with
  | error e =>
    have hargument : e = .invalidArgument .openMode := by
      unfold OpenFlags.check at hcheck
      split at hcheck
      · exact (Except.error.inj hcheck).symm
      · cases hcheck
    subst hargument
    exact Or.inl ⟨_, rfl, .argument (Or.inl hcheck), rfl⟩
  | ok =>
  cases hl : settings.layout with
  | error e =>
    obtain ⟨cause, rfl⟩ := settings.layout_error hl
    exact Or.inl ⟨_, rfl, .argument (Or.inr ⟨hcheck, hl⟩), rfl⟩
  | ok l =>
  refine ((locate_silent settings.devices rfl).and (Yields.self _ w)).bind ?_
  rintro found w₁ ⟨⟨hw₁, hmissing⟩, hlocate⟩
  cases found with
  | error e =>
    obtain rfl := hmissing e rfl
    have husable : settings.layout.toOption.isSome = true := by rw [hl]; rfl
    exact Or.inl ⟨_, rfl, .device hcheck husable (congrArg Prod.fst hlocate), hw₁⟩
  | ok path =>
  refine ((acquire_deeds settings.lockDirectory (!flags.readOnly) hw₁).and
    (Yields.self _ w₁)).bind ?_
  rintro taken w₂ ⟨⟨e, rfl, hw₂⟩ | ⟨lock, rfl, hw₂⟩, hacquire⟩
  · exact Or.inl ⟨e, rfl, .lock hlocate (congrArg Prod.fst hacquire), hw₂⟩
  have hpath := congrArg Prod.fst hlocate
  cases hreader : flags.readOnly with
  | true =>
    have hnone : w₂.log = w.log ++ [.locked lock.handle] ++
        requestsOf (none : Option (WriteGuard (StateM (Watched σ Lock File)))) true :=
      hw₂.trans (List.append_nil _).symm
    obtain ⟨accesses, deeds, hlog, haccess, hbracket⟩ := begun_deeds path l settings.verifyHeader
      hcheck lock (by rintro _ ⟨⟩) (fun _ => hreader) hnone
    exact Or.inr ⟨path, lock.handle, none, accesses, deeds, hpath, (if_pos hreader).symm, hlog,
      haccess, hbracket⟩
  | false =>
    refine (enable_deeds switch path hw₂).bind ?_
    rintro _ w₃ ⟨rfl, hw₃⟩
    have hpending : ∀ g : WriteGuard (StateM (Watched σ Lock File)),
        some ⟨switch.watched, path, true⟩ = some g → g.Pending := by
      rintro _ ⟨⟩
      exact ⟨rfl, switch, rfl⟩
    obtain ⟨accesses, deeds, hlog, haccess, hbracket⟩ := begun_deeds path l settings.verifyHeader
      hcheck lock hpending nofun hw₃
    have hwriter : ¬ flags.readOnly = true := by simp [hreader]
    exact Or.inr ⟨path, lock.handle, some ⟨switch.watched, path, true⟩, accesses, deeds, hpath,
      (if_neg hwriter).symm, hlog, haccess, hbracket⟩

/-- Operations on an open store are accesses to its device file, and there are none if the session
may not write. They change the session alone, and not whether it may write. -/
theorem calls_deeds (s : Store (StateM (Watched σ Lock File)) Lock File) (ops : List Operation)
    (w : Watched σ Lock File) :
    Yields (s.update (Operation.runAll · ops)) w fun out w' =>
      (∃ accesses, w'.log = w.log ++ accesses ∧ (∀ x ∈ accesses, x.isAccess = true) ∧
        (s.session.isReadOnly = true → accesses = [])) ∧
      ∃ session, out.2 = { s with session } ∧ session.isReadOnly = s.session.isReadOnly := by
  have hmode : Yields ((Operation.runAll s.session ops :
      ReaderT File (StateM (Watched σ Lock File)) _) s.file) w fun out _ =>
        out.2.mode = s.session.mode := Yields.judges.mode_runAll s.session ops s.file w
  obtain ⟨accesses, hlog, haccess⟩ :=
    Watched.accessing_inherited.runAll s.session ops s.file w
  refine ⟨?_, _, rfl, congrArg (fun mode : AccessMode => mode != .writable) hmode⟩
  cases hclosed : s.session.isReadOnly with
  | false => exact ⟨accesses, hlog, haccess, nofun⟩
  | true =>
    refine ⟨[], ?_, nofun, fun _ => rfl⟩
    have hrefused := Operation.runAll_refused
      (m := ReaderT File (StateM (Watched σ Lock File))) hclosed ops
    show (((Operation.runAll s.session ops :
      ReaderT File (StateM (Watched σ Lock File)) _) s.file) w).2.log = _
    rw [hrefused]
    exact (List.append_nil _).symm

theorem close_deeds {s : Store (StateM (Watched σ Lock File)) Lock File}
    (hguard : ∀ g, s.guard = some g → g.Pending) (w : Watched σ Lock File) :
    Yields s.close w fun _ w' => w'.log = w.log ++
      ([.closed s.file] ++ requestsOf s.guard false ++ [.unlocked s.lock.handle]) := by
  have hclosed : Yields (Host.closeDevice s.file) w fun _ w' =>
      w'.log = w.log ++ [.closed s.file] := rfl
  refine hclosed.bind ?_
  rintro - w₁ hw₁
  refine (dropGuard_deeds hguard hw₁).bind ?_
  rintro - w₂ hw₂
  refine (release_deeds s.lock hw₂).trans ?_
  simp only [List.append_assoc]

theorem closes_bracketed {s : Store (StateM (Watched σ Lock File)) Lock File}
    (hguard : ∀ g, s.guard = some g → g.Pending) : s.ClosesBracketed := by
  intro ops w used
  obtain ⟨⟨accesses, hlog, haccess, hnone⟩, session, hafter, -⟩ := s.calls_deeds ops w
  have hclose := close_deeds (s := { s with session }) hguard used.2
  refine ⟨accesses, haccess, hnone, ?_⟩
  rw [show used.1.2 = { s with session } from hafter]
  refine hclose.trans ?_
  rw [show used.2.log = w.log ++ accesses from hlog]
  simp only [List.append_assoc]

theorem OpensBracketed.pending {switch : WriteSwitch (StateM σ)} {settings : Settings}
    {flags : OpenFlags} {w w' : Watched σ Lock File}
    {opened : Except StoreError (Store (StateM (Watched σ Lock File)) Lock File)}
    (h : OpensBracketed switch settings flags w opened w')
    {s : Store (StateM (Watched σ Lock File)) Lock File} (hs : opened = .ok s)
    (g : WriteGuard (StateM (Watched σ Lock File))) (hg : s.guard = some g) : g.Pending := by
  subst hs
  obtain ⟨e, he, -⟩ | ⟨path, lock, guard, accesses, deeds, -, hguard, -, -, hbracket⟩ := h
  · cases he
  · cases hbracket with
    | closed _ _ hnone =>
      rw [hnone] at hg
      cases hg
    | writable _ _ hkept _ =>
      rw [hkept, hguard] at hg
      split at hg
      · cases hg
      · cases hg
        exact ⟨rfl, switch, rfl⟩

end Store

structure Watched.Stores (σ Lock File : Type) where
  watched : Watched σ Lock File
  stores : List (Store (StateM (Watched σ Lock File)) Lock File) := []

namespace Watched.Stores

variable {σ Lock File : Type} {m : Stores σ Lock File}

inductive Event (σ : Type) where
  | start (switch : WriteSwitch (StateM σ)) (settings : Settings) (flags : OpenFlags)
  | use (i : Nat) (ops : List Operation)
  | finish (i : Nat)

/-- A device that was last asked to be writable is guarded by a store that may write. -/
structure Guarded (m : Stores σ Lock File) : Prop where
  pending : ∀ s ∈ m.stores, ∀ g, s.guard = some g → g.Pending
  closed : ∀ s ∈ m.stores, s.session.isReadOnly = true → s.guard = none
  requested : ∀ device, Deed.lastRequest device m.watched.log = some true →
    ∃ s ∈ m.stores, s.guard.any (·.device == device) = true

theorem guarded_none (host : σ) : (⟨⟨host, []⟩, []⟩ : Stores σ Lock File).Guarded := by
  constructor
  · rintro s ⟨⟩
  · rintro s ⟨⟩
  · rintro device ⟨⟩

theorem Guarded.append (hm : m.Guarded) {w : Watched σ Lock File}
    {s : Store (StateM (Watched σ Lock File)) Lock File}
    (hpending : ∀ g, s.guard = some g → g.Pending)
    (hclosed : s.session.isReadOnly = true → s.guard = none)
    (hrequested : ∀ device, Deed.lastRequest device w.log = some true →
      s.guard.any (·.device == device) = true ∨
        Deed.lastRequest device m.watched.log = some true) :
    (⟨w, m.stores ++ [s]⟩ : Stores σ Lock File).Guarded := by
  constructor
  · intro s' hs'
    rcases List.mem_append.1 hs' with hs' | hs'
    · exact hm.pending s' hs'
    · rw [List.mem_singleton.1 hs']
      exact hpending
  · intro s' hs'
    rcases List.mem_append.1 hs' with hs' | hs'
    · exact hm.closed s' hs'
    · rw [List.mem_singleton.1 hs']
      exact hclosed
  · intro device hlast
    rcases hrequested device hlast with hany | hold
    · exact ⟨s, List.mem_append_right _ List.mem_cons_self, hany⟩
    · obtain ⟨s', hs', hany⟩ := hm.requested device hold
      exact ⟨s', List.mem_append_left _ hs', hany⟩

variable [Host (StateM σ) Lock File]

def step (m : Stores σ Lock File) : Event σ → Stores σ Lock File
  | .start switch settings flags =>
    let out := (Store.openWith switch.watched settings flags :
      StateM (Watched σ Lock File) _) m.watched
    match out.1 with
    | .error _ => { m with watched := out.2 }
    | .ok s => ⟨out.2, m.stores ++ [s]⟩
  | .use i ops =>
    match m.stores[i]? with
    | none => m
    | some s =>
      let out := (s.update (Operation.runAll · ops) : StateM (Watched σ Lock File) _) m.watched
      ⟨out.2, m.stores.set i out.1.2⟩
  | .finish i =>
    match m.stores[i]? with
    | none => m
    | some s => ⟨((s.close : StateM (Watched σ Lock File) _) m.watched).2, m.stores.eraseIdx i⟩

theorem Guarded.start (hm : m.Guarded) (switch : WriteSwitch (StateM σ)) (settings : Settings)
    (flags : OpenFlags) : (m.step (.start switch settings flags)).Guarded := by
  obtain ⟨⟨opened, w⟩, hrun⟩ : ∃ out, (Store.openWith switch.watched settings flags :
      StateM (Watched σ Lock File) _) m.watched = out := ⟨_, rfl⟩
  have hout : Store.OpensBracketed switch settings flags m.watched opened w := by
    have hout := Store.openWith_deeds switch settings flags m.watched
    rw [Yields, hrun] at hout
    exact hout
  unfold step
  dsimp only
  rw [hrun]
  have hbracketed := hout
  obtain ⟨e, rfl, -, hlog⟩ | ⟨path, lock, guard, accesses, deeds, -, -, hlog, haccess, hbracket⟩ :=
    hbracketed
  · refine ⟨hm.pending, hm.closed, ?_⟩
    intro device hlast
    rw [hlog] at hlast
    exact hm.requested device hlast
  cases hbracket with
  | failed =>
    refine ⟨hm.pending, hm.closed, ?_⟩
    intro device hlast
    rw [hlog, ← List.append_assoc, Deed.lastRequest_append] at hlast
    exact hm.requested device (Store.lastRequest_bracket haccess hlast)
  | closed _ _ hnone =>
    refine hm.append (hout.pending rfl) (fun _ => hnone) ?_
    intro device hlast
    rw [hlog] at hlast
    exact Or.inr (Store.lastRequest_bracket haccess hlast)
  | @writable s _ hopen hkept =>
    refine hm.append (hout.pending rfl) (fun hclosed => ?_) ?_
    · rw [hopen] at hclosed
      cases hclosed
    · intro device hlast
      rw [hlog] at hlast
      by_cases hany : s.guard.any (·.device == device) = true
      · exact Or.inl hany
      · rw [hkept] at hany
        right
        simpa [Store.lastRequest_requestsOf, hany, Deed.lastRequest_of_accesses device haccess,
          Deed.requestFor?] using hlast

theorem Guarded.use (hm : m.Guarded) (i : Nat) (ops : List Operation) :
    (m.step (.use i ops)).Guarded := by
  unfold step
  dsimp only
  cases hs : m.stores[i]? with
  | none => exact hm
  | some s =>
    obtain ⟨⟨accesses, hlog, haccess, -⟩, session, hafter, hmode⟩ := s.calls_deeds ops m.watched
    dsimp only
    rw [hafter]
    have hmem := List.mem_of_getElem? hs
    refine ⟨?_, ?_, ?_⟩
    · intro s' hs' g hg
      rcases List.mem_or_eq_of_mem_set hs' with hs' | rfl
      · exact hm.pending s' hs' g hg
      · exact hm.pending s hmem g hg
    · intro s' hs' hro
      rcases List.mem_or_eq_of_mem_set hs' with hs' | rfl
      · exact hm.closed s' hs' hro
      · exact hm.closed s hmem (hmode.symm.trans hro)
    · intro device hlast
      dsimp only at hlast
      rw [hlog, Deed.lastRequest_append, Deed.lastRequest_of_accesses device haccess,
        Option.none_or] at hlast
      obtain ⟨s', hs', hany⟩ := hm.requested device hlast
      obtain ⟨j, hj⟩ := List.mem_iff_getElem?.1 hs'
      by_cases hij : i = j
      · subst hij
        rw [hs] at hj
        cases hj
        have hi : i < m.stores.length := (List.getElem?_eq_some_iff.1 hs).1
        exact ⟨_, List.mem_of_getElem? (List.getElem?_set_self hi), hany⟩
      · exact ⟨s', List.mem_of_getElem? ((List.getElem?_set_ne hij).trans hj), hany⟩

theorem Guarded.finish (hm : m.Guarded) (i : Nat) : (m.step (.finish i)).Guarded := by
  unfold step
  dsimp only
  cases hs : m.stores[i]? with
  | none => exact hm
  | some s =>
    have hlog := s.close_deeds (hm.pending s (List.mem_of_getElem? hs)) m.watched
    refine ⟨?_, ?_, ?_⟩
    · intro s' hs' g hg
      exact hm.pending s' (List.mem_of_mem_eraseIdx hs') g hg
    · intro s' hs' hro
      exact hm.closed s' (List.mem_of_mem_eraseIdx hs') hro
    · intro device hlast
      dsimp only at hlast
      rw [hlog] at hlast
      by_cases hguard : s.guard.any (·.device == device) = true
      · simp [Store.lastRequest_requestsOf, hguard, Deed.requestFor?] at hlast
      · have hold : Deed.lastRequest device m.watched.log = some true := by
          simpa [Store.lastRequest_requestsOf, hguard, Deed.requestFor?] using hlast
        obtain ⟨s', hs', hany⟩ := hm.requested device hold
        obtain ⟨j, hj⟩ := List.mem_iff_getElem?.1 hs'
        refine ⟨s', List.mem_eraseIdx_iff_getElem?.2 ⟨j, ?_, hj⟩, hany⟩
        rintro rfl
        rw [hs] at hj
        cases hj
        exact hguard hany

theorem Guarded.step (hm : m.Guarded) (event : Event σ) : (m.step event).Guarded := by
  cases event with
  | start switch settings flags => exact hm.start switch settings flags
  | use i ops => exact hm.use i ops
  | finish i => exact hm.finish i

def run (m : Stores σ Lock File) (events : List (Event σ)) : Stores σ Lock File :=
  events.foldl step m

theorem Guarded.run (hm : m.Guarded) (events : List (Event σ)) : (m.run events).Guarded := by
  induction events generalizing m with
  | nil => exact hm
  | cons event events ih => exact ih (hm.step event)

end Watched.Stores

open Watched (Stores)

/-- A host that has one device, which is in memory, and a lock that nobody else takes. -/
instance : Host (StateM Memory) Unit Unit where
  pathExists _ := pure true
  makeDirectory _ := pure (.ok ())
  tryLock _ _ := pure (.ok (some ()))
  unlock _ := pure ()
  readFront _ _ := pure (.error .noEntry)
  writeFront _ _ := pure false
  openDevice _ _ := pure (.ok ())
  closeDevice _ := pure ()
  readDevice _ offset length := BlockDevice.readRegion offset length
  writeDevice _ w := BlockDevice.writeRegion w

/-- Write protection is bracketed, on every host and for every switch. An opening is refused for an
argument, a missing device or a lock that is not to be had, and then it asks for nothing. Otherwise
it holds the lock: it asks for nothing if it only reads, and one who may write asks first for the
device that was located to be writable, then accesses it, and asks for it to be protected before the
opening fails or gives a session that may not write. A store that may write asks for that when it is
closed, after all that its operations wrote and before it gives the lock back. Over every series of
openings, uses and closings, the last request for a device asked for protection unless a store that
may write is open. -/
theorem write_protection_brackets {σ Lock File : Type} [Host (StateM σ) Lock File]
    (switch : WriteSwitch (StateM σ)) (settings : Settings) (flags : OpenFlags)
    (w : Watched σ Lock File) (host : σ) (events : List (Stores.Event σ)) :
    (Yields (Store.openWith switch.watched settings flags) w fun opened w' =>
      Store.OpensBracketed switch settings flags w opened w' ∧
        ∀ s, opened = .ok s → s.ClosesBracketed) ∧
    let m : Stores σ Lock File := Stores.run ⟨⟨host, []⟩, []⟩ events
    (∀ s ∈ m.stores, s.session.isReadOnly = true) → ∀ device writable,
      Deed.lastRequest device m.watched.log = some writable → writable = false := by
  have hopen := Store.openWith_deeds switch settings flags w
  refine ⟨hopen.and ?_, ?_⟩
  · intro s hs
    exact s.closes_bracketed (Store.OpensBracketed.pending hopen hs)
  · intro m hclosed device writable hlast
    have hguarded : m.Guarded := (Stores.guarded_none host).run events
    cases writable with
    | false => rfl
    | true =>
      obtain ⟨s, hs, hany⟩ := hguarded.requested device hlast
      rw [hguarded.closed s hs (hclosed s hs)] at hany
      cases hany

/-- A writer opens a blank device, commits and closes it again. -/
theorem write_protection_brackets_writer :
    let settings : Settings := { devices := ["disk"], sectors := 1 }
    let switch : WriteSwitch (StateM Memory) := ⟨fun _ _ => pure true⟩
    let start : Watched Memory Unit Unit := { host := {} }
    ∃ s w, (Store.openWith switch.watched settings {} : StateM (Watched Memory Unit Unit) _) start =
        (.ok s, w) ∧ s.session.isReadOnly = false ∧
      (∃ accesses, (∀ x ∈ accesses, x.isAccess = true) ∧
        w.log = [.locked (), .requested "disk" true] ++ accesses) ∧
      let used := (s.update (Operation.runAll · [.commit]) :
        StateM (Watched Memory Unit Unit) _) w
      ∃ accesses, (∀ x ∈ accesses, x.isAccess = true) ∧
        ((used.1.2.close : StateM (Watched Memory Unit Unit) _) used.2).2.log =
          w.log ++ (accesses ++ [.closed (), .requested "disk" false, .unlocked ()]) := by
  intro settings switch start
  have hrun : ((Store.openWith switch.watched settings {} :
      StateM (Watched Memory Unit Unit) _) start).1.toOption.any (!·.session.isReadOnly) = true := by
    decide +kernel
  obtain ⟨⟨opened, w⟩, hout⟩ : ∃ out, (Store.openWith switch.watched settings {} :
      StateM (Watched Memory Unit Unit) _) start = out := ⟨_, rfl⟩
  have hboth := (write_protection_brackets switch settings {} start {} []).1
  unfold Yields at hboth
  rw [hout] at hboth hrun
  obtain ⟨s, hs, hmode⟩ := (Option.any_eq_true _ _).1 hrun
  obtain rfl : opened = .ok s := eq_ok_of_toOption hs
  obtain ⟨hbracketed, hcloses⟩ := hboth
  have hopen : s.session.isReadOnly = false := by simpa using hmode
  refine ⟨s, w, hout, hopen, ?_⟩
  obtain ⟨e, he, -⟩ | ⟨path, lock, guard, accesses, deeds, hpath, hguard, hlog, haccess, hbracket⟩ :=
    hbracketed
  · cases he
  cases hbracket with
  | closed _ hclosed =>
    rw [hopen] at hclosed
    cases hclosed
  | writable _ _ hkept =>
    have hfirst : ((Store.locate settings.devices : StateM (Watched Memory Unit Unit) _)
        start).1 = .ok "disk" := rfl
    rw [hfirst] at hpath
    cases hpath
    obtain ⟨more, hmore, -, hend⟩ := hcloses s rfl [.commit] w
    rw [hkept, hguard] at hend
    rw [hguard] at hlog
    refine ⟨⟨accesses, haccess, hlog⟩, more, hmore, ?_⟩
    refine hend.trans ?_
    simp [Store.requestsOf]

end BootStore

import BootStore.Proofs.Ranking
import BootStore.Proofs.Updates
import BootStore.Session.Progress

/-!
# Operations on an open store

The calls that change a session, what each can do to the session and to a memory device
(`Operation.run_cases`), and the runs that they make up. Every operation keeps a session grounded.
-/
namespace BootStore

inductive Operation where
  | set (name : String) (value : Option String)
  | delete (name : String)
  | commit
  | markInProgress
  | markSuccessful
  deriving DecidableEq, Repr

namespace Operation

def edit (s : Session) : Except StoreError Session → Except StoreError Unit × Session
  | .error e => (.error e, s)
  | .ok after => (.ok (), after)

variable {m : Type → Type} [Monad m] [BlockDevice m]

def run (s : Session) : Operation → m (Except StoreError Unit × Session)
  | .set name value => return edit s (s.set name value)
  | .delete name => return edit s (s.delete name)
  | .commit => s.commit
  | .markInProgress => do
    let (result, after) ← s.markInProgress
    return (result.map fun _ => (), after)
  | .markSuccessful => do
    let (result, after) ← s.markSuccessful
    return (result.map fun _ => (), after)

/-- The header whose flags and count an operation commits, if it commits. -/
def header? (s : Session) : Operation → Option Header
  | .set _ _ | .delete _ => none
  | .commit => some s.header
  | .markInProgress => some s.header.startBoot
  | .markSuccessful => some s.header.endBoot

end Operation

namespace Header

@[simp] theorem serial_startBoot (h : Header) : h.startBoot.serial = h.serial := by
  unfold startBoot
  split <;> rfl

@[simp] theorem serial_endBoot (h : Header) : h.endBoot.serial = h.serial := rfl

end Header

namespace Session

/-- The session belongs to the layout and the device holds its current copy. -/
structure Grounded (l : Layout) (v : Bool) (s : Session) (contents : Bytes) : Prop where
  layout : s.layout = l
  stored : Stored l v contents s.current s.header
  storable : s.vars.Storable

theorem set_cases {s after : Session} {name : String} {value : Option String}
    (h : s.set name value = .ok after) :
    ∃ vs, s.vars.set name value s.layout.variableLimit = .ok vs ∧ after = { s with vars := vs } := by
  unfold set at h
  split at h
  · cases h
  cases hvs : s.vars.set name value s.layout.variableLimit with
  | error e =>
    rw [hvs] at h
    cases h
  | ok vs =>
    rw [hvs] at h
    cases h
    exact ⟨vs, rfl, rfl⟩

theorem isReadOnly_eq_false {s : Session} : s.isReadOnly = false ↔ s.mode = .writable := by
  rw [isReadOnly, bne_eq_false_iff_eq]

section Committing

variable {m : Type → Type} [Monad m] [BlockDevice m] {s : Session}

/-- A commit that takes the flags and the count from `h` and swaps no header. -/
def commitWith (s : Session) (h : Header) : m (Except StoreError Unit × Session) := do
  if s.isReadOnly then return (.error .readOnly, s)
  match s.nextUpdate h with
  | .error e => return (.error e, s)
  | .ok u =>
    match ← BlockDevice.writeAll (u.writes s.layout s.rivalOutranks) with
    | .error e => return (.error (.io e), s.attempted u)
    | .ok () => return (.ok (), s.committed u)

theorem commit_eq (s : Session) : (s.commit : m _) = s.commitWith s.header := rfl

/-- All that a commit keeps of a swapped header is its flags and its count, if the serial stays. -/
theorem commitHeader_eq [LawfulMonad m] {h : Header} (hserial : h.serial = s.header.serial) :
    (s.commitHeader h : m _) = s.commitWith h := by
  have hclosed : { s with header := h }.isReadOnly = s.isReadOnly := rfl
  have hupdate : { s with header := h }.nextUpdate h = s.nextUpdate h := by
    simp only [nextUpdate, nextHeader, hserial]
  have houtranks : { s with header := h }.rivalOutranks = s.rivalOutranks := by
    simp only [rivalOutranks, hserial]
  unfold commitHeader commit commitWith
  simp only [hclosed, hupdate, houtranks]
  split
  · rfl
  · cases s.nextUpdate h with
    | error e => rw [pure_bind]
    | ok u =>
      simp only [bind_assoc]
      congr 1
      funext written
      cases written with
      | error e => rw [pure_bind]; rfl
      | ok => rw [pure_bind]; rfl

theorem commitWith_refused (hs : s.isReadOnly = true) (h : Header) :
    (s.commitWith h : m _) = pure (.error .readOnly, s) := by
  simp only [commitWith, hs, if_true]

theorem commitHeader_refused (hs : s.isReadOnly = true) (h : Header) :
    (s.commitHeader h : m _) = pure (.error .readOnly, s) := by
  simp only [commitHeader, hs, if_true]

theorem commitWith_unfit (hmode : s.mode = .writable) {h : Header} {e : StoreError}
    (he : s.nextUpdate h = .error e) : (s.commitWith h : m _) = pure (.error e, s) := by
  have hopen := isReadOnly_eq_false.2 hmode
  simp only [commitWith, hopen, Bool.false_eq_true, if_false, he]

end Committing

theorem commitWith_writes {s : Session} (hmode : s.mode = .writable) {h : Header} {u : Update}
    (hu : s.nextUpdate h = .ok u) (d : Memory) :
    let out := (s.commitWith h : StateM Memory _) d
    let written := (BlockDevice.writeAll (u.writes s.layout s.rivalOutranks) : StateM Memory _) d
    out.2 = written.2 ∧
      (written.1 = .ok () ∧ out.1 = (.ok (), s.committed u) ∨
        ∃ e, written.1 = .error e ∧ out.1 = (.error (.io e), s.attempted u)) := by
  have hopen := isReadOnly_eq_false.2 hmode
  simp only [commitWith, hopen, Bool.false_eq_true, if_false, hu, Memory.bind_apply]
  cases hw : ((BlockDevice.writeAll (u.writes s.layout s.rivalOutranks) :
      StateM Memory _) d).1 with
  | error e => exact ⟨rfl, Or.inr ⟨e, rfl, rfl⟩⟩
  | ok => exact ⟨rfl, Or.inl ⟨rfl, rfl⟩⟩

theorem commitWith_cases (s : Session) (h : Header) (d : Memory) :
    let out := (s.commitWith h : StateM Memory _) d
    (∃ e, out = ((.error e, s), d)) ∨
    ∃ u, s.mode = .writable ∧ s.nextUpdate h = .ok u ∧
      let written := (BlockDevice.writeAll (u.writes s.layout s.rivalOutranks) : StateM Memory _) d
      out.2 = written.2 ∧
        (written.1 = .ok () ∧ out.1 = (.ok (), s.committed u) ∨
          ∃ e, written.1 = .error e ∧ out.1 = (.error (.io e), s.attempted u)) := by
  by_cases hmode : s.mode = .writable
  · cases hu : s.nextUpdate h with
    | error e =>
      left
      rw [commitWith_unfit hmode hu]
      exact ⟨e, rfl⟩
    | ok u => exact Or.inr ⟨u, hmode, rfl, commitWith_writes hmode hu d⟩
  · left
    have hclosed : s.isReadOnly = true := by
      rw [← Bool.not_eq_false, isReadOnly_eq_false]
      exact hmode
    rw [commitWith_refused hclosed]
    exact ⟨_, rfl⟩

theorem ready_of_nextUpdate {l : Layout} (hl : l.Placed) {s : Session} (hs : s.layout = l)
    {h : Header} {u : Update} (hu : s.nextUpdate h = .ok u) :
    Update.prepare l s.current.other (s.nextHeader h) s.vars = .ok u ∧
      u.target = s.current.other ∧ u.Ready l (s.nextHeader h) s.vars := by
  rw [nextUpdate, hs] at hu
  refine ⟨hu, Update.prepare_ready hl (UInt16.le_refl _) ?_ hu⟩
  rw [nextHeader_sectors, hs]

theorem Grounded.nextUpdate_ready {l : Layout} {v : Bool} {s : Session} {c : Bytes} (hl : l.Placed)
    (hs : s.Grounded l v c) {h : Header} {u : Update} (hu : s.nextUpdate h = .ok u) :
    u.target = s.current.other ∧ u.Ready l (s.nextHeader h) s.vars :=
  (ready_of_nextUpdate hl hs.layout hu).2

theorem Grounded.nextUpdate_of_room {l : Layout} {v : Bool} {s : Session} {c : Bytes}
    (hs : s.Grounded l v c) (hroom : s.vars.packedSize < l.variableSpace) (h : Header) :
    ∃ u, s.nextUpdate h = .ok u := by
  rcases Update.prepare_cases s.layout s.current.other (s.nextHeader h) s.vars with
    ⟨-, hu⟩ | ⟨hfull, -⟩
  · exact hu
  · rw [hs.layout] at hfull
    omega

/-- Whatever becomes of an update of the other slot, the current copy keeps its bytes. -/
theorem Grounded.stored_writeAll {l : Layout} {v : Bool} {s : Session} {d : Memory} (hl : l.Placed)
    (hs : s.Grounded l v d.contents) {h : Header} {vs : Variables} {u : Update}
    (htarget : u.target = s.current.other) (hu : u.Ready l h vs) (clearFirst : Bool) :
    let after := ((BlockDevice.writeAll (u.writes l clearFirst) : StateM Memory _) d).2
    Stored l v after.contents s.current s.header ∧
      Bytes.slice after.contents (l.offset s.current) l.copySize =
        Bytes.slice d.contents (l.offset s.current) l.copySize := by
  have hother : u.target.other = s.current := by rw [htarget, Slot.other_other]
  have hstored := hs.stored
  rw [← hother] at hstored ⊢
  exact Update.stored_writeAll hl hu clearFirst hstored

theorem Grounded.commitWith_ok {l : Layout} {v : Bool} {s : Session} {d : Memory} (hl : l.Placed)
    (hs : s.Grounded l v d.contents) {h : Header}
    (hok : ((s.commitWith h : StateM Memory _) d).1.1 = .ok ()) :
    ∃ u, u.target = s.current.other ∧ u.Ready l (s.nextHeader h) s.vars ∧
      ((s.commitWith h : StateM Memory _) d).1.2 = s.committed u ∧
      ((s.commitWith h : StateM Memory _) d).2 =
        ((BlockDevice.writeAll (u.writes l s.rivalOutranks) : StateM Memory _) d).2 ∧
      ((BlockDevice.writeAll (u.writes l s.rivalOutranks) : StateM Memory _) d).1 = .ok () := by
  rcases s.commitWith_cases h d with ⟨e, he⟩ | ⟨u, -, hu, hd, hresult⟩
  · rw [he] at hok
    cases hok
  · obtain ⟨htarget, hready⟩ := hs.nextUpdate_ready hl hu
    rw [hs.layout] at hd hresult
    rcases hresult with ⟨hwritten, hout⟩ | ⟨e, -, hout⟩
    · exact ⟨u, htarget, hready, by rw [hout], hd, hwritten⟩
    · rw [hout] at hok
      cases hok

theorem Grounded.commit_ok {l : Layout} {v : Bool} {s : Session} {d : Memory} (hl : l.Placed)
    (hs : s.Grounded l v d.contents)
    (hok : ((s.commit : StateM Memory _) d).1.1 = .ok ()) :
    ∃ u, u.target = s.current.other ∧ u.Ready l (s.nextHeader s.header) s.vars ∧
      ((s.commit : StateM Memory _) d).1.2 = s.committed u ∧
      ((s.commit : StateM Memory _) d).2 =
        ((BlockDevice.writeAll (u.writes l s.rivalOutranks) : StateM Memory _) d).2 ∧
      ((BlockDevice.writeAll (u.writes l s.rivalOutranks) : StateM Memory _) d).1 = .ok () :=
  hs.commitWith_ok hl hok

section NextSerial

variable {l : Layout} {s : Session} {h : Header} {vs : Variables} {u : Update}

theorem serial_of_ready (hu : u.Ready l (s.nextHeader h) vs) :
    u.header.serial = s.header.serial + 1 := by
  rw [hu.header]
  rfl

theorem losesTo_of_ready (hu : u.Ready l (s.nextHeader h) vs) :
    s.current.losesTo s.header.serial u.header.serial = true := by
  rw [serial_of_ready hu]
  exact Slot.losesTo_succ s.current s.header.serial

theorem target_wins_of_ready (htarget : u.target = s.current.other)
    (hu : u.Ready l (s.nextHeader h) vs) :
    u.target.losesTo u.header.serial s.header.serial = false := by
  rw [htarget, Slot.losesTo_other, losesTo_of_ready hu]
  rfl

end NextSerial

end Session

namespace Operation

theorem run_of_header? {s : Session} {op : Operation} {h : Header} (hop : op.header? s = some h)
    (d : Memory) : (op.run s : StateM Memory _) d = (s.commitWith h : StateM Memory _) d := by
  have hunit : ∀ (n : UInt8) (r : Except StoreError Unit),
      (r.map fun _ => n).map (fun _ => ()) = r := by
    intro n r
    cases r <;> rfl
  cases op with
  | set name value => cases hop
  | delete name => cases hop
  | commit =>
    cases hop
    exact congrFun (Session.commit_eq s) d
  | markInProgress =>
    cases hop
    simp only [run, Session.markInProgress, Memory.bind_apply, Memory.pure_apply,
      Session.commitHeader_eq s.header.serial_startBoot]
    rw [hunit]
    rfl
  | markSuccessful =>
    cases hop
    simp only [run, Session.markSuccessful, Memory.bind_apply, Memory.pure_apply,
      Session.commitHeader_eq s.header.serial_endBoot]
    rw [hunit]
    rfl

theorem edit_keeps (s : Session) (name : String) (value : Option String) :
    ∃ vs, (edit s (s.set name value)).2 = { s with vars := vs } := by
  cases hset : s.set name value with
  | error e => exact ⟨s.vars, rfl⟩
  | ok after =>
    obtain ⟨vs, -, rfl⟩ := Session.set_cases hset
    exact ⟨vs, rfl⟩

variable {l : Layout} {v : Bool} {s : Session}

theorem edit_cases {c : Bytes} (hs : s.Grounded l v c) (name : String) (value : Option String) :
    ∃ vs, (edit s (s.set name value)).2 = { s with vars := vs } ∧ vs.Storable := by
  cases hset : s.set name value with
  | error e => exact ⟨s.vars, rfl, hs.storable⟩
  | ok after =>
    obtain ⟨vs, hvs, rfl⟩ := Session.set_cases hset
    exact ⟨vs, rfl, hs.storable.set hvs⟩

/-- What an operation can do: change the variables and leave the device alone, or write an update
over the other slot. -/
theorem run_cases (hl : l.Placed) {d : Memory} (hs : s.Grounded l v d.contents) (op : Operation) :
    let out := (op.run s : StateM Memory _) d
    (out.2 = d ∧ ∃ vs, out.1.2 = { s with vars := vs } ∧ vs.Storable) ∨
    ∃ h u, op.header? s = some h ∧ u.target = s.current.other ∧
      u.Ready l (s.nextHeader h) s.vars ∧
      let written := (BlockDevice.writeAll (u.writes l s.rivalOutranks) : StateM Memory _) d
      out.2 = written.2 ∧
        (written.1 = .ok () ∧ out.1 = (.ok (), s.committed u) ∨
          ∃ e, written.1 = .error e ∧ out.1 = (.error (.io e), s.attempted u)) := by
  cases hop : op.header? s with
  | none =>
    left
    cases op with
    | set name value => exact ⟨rfl, edit_cases hs name value⟩
    | delete name => exact ⟨rfl, edit_cases hs name none⟩
    | commit => cases hop
    | markInProgress => cases hop
    | markSuccessful => cases hop
  | some h =>
    simp only [run_of_header? hop]
    rcases s.commitWith_cases h d with ⟨e, he⟩ | ⟨u, -, hu, hdev, hout⟩
    · left
      rw [he]
      exact ⟨rfl, s.vars, rfl, hs.storable⟩
    · obtain ⟨htarget, hready⟩ := hs.nextUpdate_ready hl hu
      rw [hs.layout] at hdev hout
      exact Or.inr ⟨h, u, rfl, htarget, hready, hdev, hout⟩

/-- Every operation keeps a session grounded, however its writes end. -/
theorem grounded_run (hl : l.Placed) {d : Memory} (hs : s.Grounded l v d.contents)
    (op : Operation) :
    ((op.run s : StateM Memory _) d).1.2.Grounded l v
      ((op.run s : StateM Memory _) d).2.contents := by
  rcases op.run_cases hl hs with ⟨hd, vs, hout, hvs⟩ |
    ⟨h, u, -, htarget, hready, hd, ⟨hok, hout⟩ | ⟨e, herr, hout⟩⟩
  · rw [hd, hout]
    exact ⟨hs.layout, hs.stored, hvs⟩
  · rw [hd, hout]
    exact ⟨hs.layout, (Update.stored_of_writeAll_ok hl hready hok v).1, hs.storable⟩
  · rw [hd, hout]
    exact ⟨hs.layout, (hs.stored_writeAll hl htarget hready s.rivalOutranks).1, hs.storable⟩

end Operation

/-- The sessions and devices that operations lead to when all calls to the device are allowed. -/
inductive Reached (allowed : Access → Prop) (s₀ : Session) (d₀ : Memory) :
    Session → Memory → Prop where
  | start : Reached allowed s₀ d₀ s₀ d₀
  | call {s : Session} {d : Memory} (op : Operation) : Reached allowed s₀ d₀ s d →
      (∀ x ∈ d.since ((op.run s : StateM Memory _) d).2, allowed x) →
      Reached allowed s₀ d₀ ((op.run s : StateM Memory _) d).1.2 ((op.run s : StateM Memory _) d).2

theorem Reached.grounded {allowed : Access → Prop} {l : Layout} {v : Bool} {s₀ s : Session}
    {d₀ d : Memory} (hl : l.Placed) (h₀ : s₀.Grounded l v d₀.contents)
    (hr : Reached allowed s₀ d₀ s d) : s.Grounded l v d.contents := by
  induction hr with
  | start => exact h₀
  | call op _ _ ih => exact op.grounded_run hl ih

end BootStore

import BootStore.Proofs.Hosting
import BootStore.Proofs.ReadOnly

/-!
# Watching a host

A host whose locks, write-protect requests and device files are noted in a log beside its own state
(`Watched`). All that a session does goes through the calls of its device (`BlockDevice.Inherited`).
-/
namespace BootStore

/-- What a run does to locks, write-protect switches and device files. -/
inductive Deed (Lock File : Type) where
  | locked (lock : Lock)
  | unlocked (lock : Lock)
  | requested (device : String) (writable : Bool)
  /-- A device file is about to be opened. -/
  | opening (device : String)
  | opened (file : File)
  | wrote (file : File) (w : Write)
  | closed (file : File)

namespace Deed

variable {Lock File : Type}

def isAccess : Deed Lock File → Bool
  | .opening _ | .opened _ | .wrote _ _ | .closed _ => true
  | .locked _ | .unlocked _ | .requested _ _ => false

def requestFor? (device : String) : Deed Lock File → Option Bool
  | .requested d writable => if d = device then some writable else none
  | _ => none

def lastRequest (device : String) (log : List (Deed Lock File)) : Option Bool :=
  (log.filterMap (requestFor? device)).getLast?

@[simp] theorem lastRequest_append (device : String) (log more : List (Deed Lock File)) :
    lastRequest device (log ++ more) = (lastRequest device more).or (lastRequest device log) := by
  rw [lastRequest, List.filterMap_append, List.getLast?_append]
  rfl

@[simp] theorem lastRequest_nil (device : String) :
    lastRequest device ([] : List (Deed Lock File)) = none := rfl

@[simp] theorem lastRequest_cons (device : String) (x : Deed Lock File)
    (log : List (Deed Lock File)) :
    lastRequest device (x :: log) = (lastRequest device log).or (requestFor? device x) := by
  have hfirst : lastRequest device [x] = requestFor? device x := by
    unfold lastRequest
    cases h : requestFor? device x <;> simp [h]
  rw [← List.singleton_append, lastRequest_append, hfirst]

theorem lastRequest_of_accesses (device : String) {log : List (Deed Lock File)}
    (h : ∀ x ∈ log, x.isAccess = true) : lastRequest device log = none := by
  rw [lastRequest, List.getLast?_eq_none_iff, List.filterMap_eq_nil_iff]
  intro x hx
  have hx := h x hx
  cases x <;> first | rfl | cases hx

end Deed

structure Watched (σ Lock File : Type) where
  host : σ
  log : List (Deed Lock File) := []

namespace Watched

variable {σ Lock File α : Type}

/-- The host's own action, with the deeds that go with its answer noted. -/
def noting (action : StateM σ α) (deeds : α → List (Deed Lock File)) :
    StateM (Watched σ Lock File) α := fun w =>
  let (a, host) := action w.host
  (a, { host, log := w.log ++ deeds a })

/-- Only a lock that is held and a device file that is open count as taken. -/
instance [Host (StateM σ) Lock File] : Host (StateM (Watched σ Lock File)) Lock File where
  pathExists path := noting (Host.pathExists path) fun _ => []
  makeDirectory path := noting (Host.makeDirectory path) fun _ => []
  tryLock path exclusive := noting (Host.tryLock path exclusive) fun
    | .ok (some lock) => [.locked lock]
    | _ => []
  unlock lock := noting (Host.unlock lock) fun _ => [.unlocked lock]
  readFront path limit := noting (Host.readFront path limit) fun _ => []
  writeFront path data := noting (Host.writeFront path data) fun _ => []
  openDevice path readOnly := noting (Host.openDevice path readOnly) fun
    | .ok file => [.opening path, .opened file]
    | .error _ => [.opening path]
  closeDevice file := noting (Host.closeDevice file) fun _ => [.closed file]
  readDevice file offset length := noting (Host.readDevice file offset length) fun _ => []
  writeDevice file w := noting (Host.writeDevice file w) fun _ => [.wrote file w]

end Watched

def WriteSwitch.watched {σ Lock File : Type} (switch : WriteSwitch (StateM σ)) :
    WriteSwitch (StateM (Watched σ Lock File)) where
  setWritable device writable :=
    Watched.noting (switch.setWritable device writable) fun _ => [.requested device writable]

/-- A property of actions that the calls of a device have and that actions pass on to what is
composed of them. -/
structure BlockDevice.Inherited {m : Type → Type} [Monad m] [BlockDevice m]
    (P : (α : Type) → m α → Prop) : Prop where
  pure : ∀ {α : Type} (a : α), P α (Pure.pure a)
  bind : ∀ {α β : Type} {x : m α} {f : α → m β}, P α x → (∀ a, P β (f a)) → P β (x >>= f)
  read : ∀ offset length, P _ (readRegion offset length)
  write : ∀ w, P _ (writeRegion w)

section Inherited

variable {m : Type → Type} [Monad m] [BlockDevice m] {P : (α : Type) → m α → Prop}

namespace BlockDevice.Inherited

variable (hP : Inherited P)

include hP

theorem writeAll (ws : List Write) : P _ (BlockDevice.writeAll ws) := by
  induction ws with
  | nil => exact hP.pure _
  | cons w ws ih =>
    apply hP.bind (hP.write w)
    intro result
    cases result with
    | error e => exact hP.pure _
    | ok => exact ih

theorem sighting (l : Layout) (v : Bool) (s : Slot) : P _ (Sighting.take l v s) := by
  apply hP.bind (hP.read _ _)
  intro block
  split
  · exact hP.pure _
  · split
    · exact hP.pure _
    · apply hP.bind (hP.read _ _)
      intro extension
      split
      · exact hP.pure _
      · exact hP.pure _

theorem survey (l : Layout) (v : Bool) : P _ (Survey.take l v) := by
  apply hP.bind (hP.sighting l v .a)
  intro a
  apply hP.bind (hP.sighting l v .b)
  intro b
  exact hP.pure _

theorem establish (l : Layout) (vs : Variables) : P _ (Session.establish l vs) := by
  apply hP.bind (hP.writeAll _)
  intro blanked
  split
  · exact hP.pure _
  · split
    · exact hP.pure _
    · apply hP.bind (hP.writeAll _)
      intro written
      split
      · exact hP.pure _
      · exact hP.pure _

theorem begin (l : Layout) (v : Bool) (flags : OpenFlags) : P _ (Session.begin l v flags) := by
  apply hP.bind (hP.survey l v)
  intro survey
  split
  · split
    · exact hP.pure _
    · exact hP.establish l _
  · split
    · exact hP.establish l _
    · exact hP.pure _

theorem commit (s : Session) : P _ s.commit := by
  unfold Session.commit
  split
  · exact hP.pure _
  · split
    · exact hP.pure _
    · apply hP.bind (hP.writeAll _)
      intro written
      split
      · exact hP.pure _
      · exact hP.pure _

theorem commitHeader (s : Session) (h : Header) : P _ (s.commitHeader h) := by
  unfold Session.commitHeader
  split
  · exact hP.pure _
  · apply hP.bind (hP.commit _)
    intro out
    split
    · exact hP.pure _
    · exact hP.pure _

theorem run (s : Session) (op : Operation) : P _ (op.run s) := by
  cases op with
  | set name value => exact hP.pure _
  | delete name => exact hP.pure _
  | commit => exact hP.commit s
  | markInProgress =>
    exact hP.bind (hP.bind (hP.commitHeader s _) fun _ => hP.pure _) fun _ => hP.pure _
  | markSuccessful =>
    exact hP.bind (hP.bind (hP.commitHeader s _) fun _ => hP.pure _) fun _ => hP.pure _

theorem runAll (s : Session) (ops : List Operation) : P _ (Operation.runAll s ops) := by
  induction ops generalizing s with
  | nil => exact hP.pure _
  | cons op ops ih =>
    apply hP.bind (hP.run s op)
    intro answered
    apply hP.bind (ih answered.2)
    intro rest
    exact hP.pure _

end BlockDevice.Inherited

end Inherited

namespace Watched

variable {σ Lock File α β : Type}

/-- The action is noted as accesses to device files and as nothing else. -/
def Accessing (action : StateM (Watched σ Lock File) α) : Prop :=
  ∀ w, Yields action w fun _ w' =>
    ∃ accesses, w'.log = w.log ++ accesses ∧ ∀ x ∈ accesses, x.isAccess = true

namespace Accessing

theorem pure (a : α) : Accessing (Pure.pure a : StateM (Watched σ Lock File) α) := by
  intro w
  exact ⟨[], (List.append_nil _).symm, nofun⟩

theorem noting {action : StateM σ α} {deeds : α → List (Deed Lock File)}
    (h : ∀ a, ∀ x ∈ deeds a, x.isAccess = true) : Accessing (Watched.noting action deeds) :=
  fun w => ⟨deeds (action w.host).1, rfl, h _⟩

theorem bind {action : StateM (Watched σ Lock File) α}
    {next : α → StateM (Watched σ Lock File) β} (h : Accessing action)
    (hnext : ∀ a, Accessing (next a)) : Accessing (action >>= next) := by
  intro w
  refine (h w).bind ?_
  rintro a w₁ ⟨first, hfirst, haccess⟩
  obtain ⟨rest, hrest, haccess'⟩ := hnext a w₁
  refine ⟨first ++ rest, ?_, ?_⟩
  · rw [hrest, hfirst, List.append_assoc]
  · intro x hx
    rcases List.mem_append.1 hx with hx | hx
    · exact haccess x hx
    · exact haccess' x hx

end Accessing

variable [Host (StateM σ) Lock File]

theorem accessing_inherited : BlockDevice.Inherited
    (m := ReaderT File (StateM (Watched σ Lock File)))
    fun _ action => ∀ file, Accessing (action file) := by
  constructor
  · intro α a file
    exact .pure a
  · intro α β x f hx hf file
    exact .bind (hx file) fun a => hf a file
  · intro offset length file
    exact .noting fun _ => nofun
  · intro w file
    exact .noting fun _ => by simp [Deed.isAccess]

end Watched

namespace Store

variable {σ Lock File : Type} [Host (StateM σ) Lock File] {w : Watched σ Lock File}
  {log : List (Deed Lock File)}

theorem locate_silent (candidates : List String) (hw : w.log = log) :
    Yields (locate candidates) w fun found w' =>
      w'.log = log ∧ ∀ e, found = .error e → e = .deviceNotFound candidates := by
  have hlocate : ∀ (w : Watched σ Lock File), w.log = log →
      Yields (locate? candidates) w fun _ w' => w'.log = log := by
    induction candidates with
    | nil => exact fun w hw => hw
    | cons path rest ih =>
      intro w hw
      have hexists : Yields (Host.pathExists path) w fun _ w' => w'.log = log :=
        (List.append_nil _).trans hw
      refine hexists.bind ?_
      intro found w₁ hw₁
      cases found with
      | true => exact hw₁
      | false => exact ih w₁ hw₁
  refine (hlocate w hw).bind ?_
  intro found w₁ hw₁
  cases found with
  | some path => exact ⟨hw₁, nofun⟩
  | none =>
    refine ⟨hw₁, ?_⟩
    rintro _ ⟨⟩
    rfl

theorem tryLock_deeds (path : String) (exclusive : Bool) (hw : w.log = log) :
    Yields (Host.tryLock path exclusive) w fun taken w' =>
      ((taken = .ok none ∨ ∃ e, taken = .error e) ∧ w'.log = log) ∨
        ∃ lock : Lock, taken = .ok (some lock) ∧ w'.log = log ++ [.locked lock] := by
  show Yields (Watched.noting _ _) w _
  unfold Yields Watched.noting
  rcases (Host.tryLock path exclusive : StateM σ _) w.host with ⟨e | lock | lock, host⟩
  · exact Or.inl ⟨Or.inr ⟨e, rfl⟩, (List.append_nil _).trans hw⟩
  · exact Or.inl ⟨Or.inl rfl, (List.append_nil _).trans hw⟩
  · exact Or.inr ⟨lock, rfl, congrArg (· ++ _) hw⟩

theorem acquire_deeds (directory : String) (exclusive : Bool) (hw : w.log = log) :
    Yields (StoreLock.acquire directory exclusive) w fun taken w' =>
      (∃ e, taken = .error e ∧ w'.log = log) ∨
        ∃ lock : StoreLock Lock, taken = .ok lock ∧ w'.log = log ++ [.locked lock.handle] := by
  unfold StoreLock.acquire
  extract_lets path lock
  have hlock : ∀ w₁ : Watched σ Lock File, w₁.log = log → Yields lock w₁ fun taken w' =>
      (∃ e, taken = .error e ∧ w'.log = log) ∨
        ∃ lock : StoreLock Lock, taken = .ok lock ∧ w'.log = log ++ [.locked lock.handle] := by
    intro w₁ hw₁
    refine (tryLock_deeds path exclusive hw₁).bind ?_
    rintro _ w₂ (⟨rfl | ⟨e, rfl⟩, hw₂⟩ | ⟨handle, rfl, hw₂⟩)
    · exact Or.inl ⟨_, rfl, hw₂⟩
    · exact Or.inl ⟨_, rfl, hw₂⟩
    · exact Or.inr ⟨_, rfl, hw₂⟩
  have hmade : Yields (Host.makeDirectory directory) w fun _ w' => w'.log = log :=
    (List.append_nil _).trans hw
  refine hmade.bind ?_
  intro made w₁ hw₁
  split
  · exact hlock w₁ hw₁
  · exact hlock w₁ hw₁
  · exact Or.inl ⟨_, rfl, hw₁⟩

theorem beginOn_accessing (path : String) (l : Layout) (v : Bool) (flags : OpenFlags) :
    Watched.Accessing (beginOn path l v flags : StateM (Watched σ Lock File) _) := by
  have hopen : Watched.Accessing
      (Host.openDevice path flags.readOnly : StateM (Watched σ Lock File) _) := by
    apply Watched.Accessing.noting
    intro result
    cases result <;> simp [Deed.isAccess]
  apply Watched.Accessing.bind hopen
  intro opened
  cases opened with
  | error e => exact .pure _
  | ok file =>
    apply Watched.Accessing.bind (Watched.accessing_inherited.begin l v flags file)
    intro begun
    cases begun with
    | ok session => exact .pure _
    | error e => exact .bind (.noting fun _ => by simp [Deed.isAccess]) fun _ => .pure _

end Store

end BootStore

import BootStore.Session.Commit
import BootStore.Settings

/-!
# Opening

A session begins on the current copy that a survey finds. A writer that finds none, or is told to
start anew, blanks both copies and commits a fresh first copy.
-/
namespace BootStore

structure OpenFlags where
  readOnly : Bool := false
  /-- Initialize the store even if it has a valid copy. -/
  forceInit : Bool := false
  deriving DecidableEq, Repr

def OpenFlags.check (f : OpenFlags) : Except StoreError Unit :=
  if f.readOnly && f.forceInit then .error (.invalidArgument .openMode) else .ok ()

namespace Session

/-- Zeros over both copies, each header block before its extension. -/
def blanking (l : Layout) : List Write :=
  [Slot.a, Slot.b].flatMap fun s =>
    [⟨l.offset s, Bytes.zeros blockSize⟩, ⟨l.extensionOffset s, Bytes.zeros l.extensionSize⟩]

/-- The first update of a store: copy A with serial 1 and nothing counted. -/
def firstUpdate (l : Layout) (vs : Variables) : Except StoreError Update :=
  Update.prepare l .a (.fresh 0 0 1 l.sectors) vs

def ofFirstUpdate (l : Layout) (vs : Variables) (u : Update) : Session where
  layout := l
  current := u.target
  header := u.header
  vars := vs
  rival := none
  mode := .writable

@[simp] theorem ofFirstUpdate_current (l : Layout) (vs : Variables) (u : Update) :
    (ofFirstUpdate l vs u).current = u.target := rfl

variable {m : Type → Type} [Monad m] [BlockDevice m]

/-- Blanks both copies and commits a fresh copy with these variables. Once the copies are blank, a
failure leaves the store without a valid copy. -/
def establish (l : Layout) (vs : Variables) : m (Except StoreError Session) := do
  match ← BlockDevice.writeAll (blanking l) with
  | .error e => return .error (.io e)
  | .ok () =>
    match firstUpdate l vs with
    | .error e => return .error (.indeterminate e)
    | .ok u =>
      match ← BlockDevice.writeAll (u.parts l) with
      | .error e => return .error (.indeterminate (.io e))
      | .ok () => return .ok (ofFirstUpdate l vs u)

/-- Surveys the device and begins a session on it, initializing the store if need be. -/
def begin (l : Layout) (verifyHeader : Bool) (flags : OpenFlags) :
    m (Except StoreError Session) := do
  let survey ← Survey.take l verifyHeader
  match ofSurvey l flags.readOnly survey with
  | none => if flags.readOnly then return .error .noValidStore else establish l {}
  | some s => if flags.forceInit then establish l s.vars.preserved else return .ok s

def openOn (settings : Settings) (flags : OpenFlags) : m (Except StoreError Session) := do
  match flags.check with
  | .error e => return .error e
  | .ok () =>
    match settings.layout with
    | .error e => return .error e
    | .ok l => begin l settings.verifyHeader flags

end Session

end BootStore

import BootStore.Survey
import BootStore.Variables.Region

/-!
# Sessions

A store that is open on a device: its layout, which copy is current, the current header, the live
variables, and what the other copy's header block was last seen to hold. Variables change here
only; a commit writes them out.
-/
namespace BootStore

inductive AccessMode where
  | writable
  | readOnly
  /-- The current copy's variables are damaged: those before the damage can be read and nothing
  can be written. -/
  | degraded
  deriving DecidableEq, Repr

structure Session where
  layout : Layout
  current : Slot
  header : Header
  vars : Variables
  /-- The header last seen in the other copy's header block, accepted or not. -/
  rival : Option Header
  mode : AccessMode

namespace Session

def isReadOnly (s : Session) : Bool := s.mode != .writable

def isDegraded (s : Session) : Bool := s.mode == .degraded

def ofSurvey (l : Layout) (readOnly : Bool) (survey : Survey) : Option Session := do
  let current ← survey.current?
  let header ← (survey.sighting current).header?
  let region := Copy.variableRegion l (survey.sighting current).bytes
  let (vars, defect) := Region.readTolerant region
  return {
    layout := l
    current
    header
    vars
    rival := (survey.sighting current.other).apparentHeader?
    mode :=
      match defect, readOnly with
      | some _, _ => .degraded
      | none, true => .readOnly
      | none, false => .writable }

def get (s : Session) (name : String) : Except StoreError String :=
  match s.vars.get? name with
  | some value => .ok value
  | none => .error (.notFound name)

/-- Sets a variable; no value, or an empty one, deletes it. -/
def set (s : Session) (name : String) (value : Option String) : Except StoreError Session :=
  if s.isReadOnly then .error .readOnly
  else (s.vars.set name value s.layout.variableLimit).map ({ s with vars := · })

def delete (s : Session) (name : String) : Except StoreError Session := s.set name none

end Session

end BootStore

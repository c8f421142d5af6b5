import BootStore.Error
import BootStore.Text.Utf8

/-!
# Special files

Files that hold nothing of their own: whether they can be opened, what they give to a reader, and
what becomes of what is written to them.
-/
namespace BootStore

inductive SpecialFile.Source where
  /-- These bytes, and then the end. -/
  | bytes (b : Bytes)
  | zeros
  /-- What waits on standard input, in its order and at no offset. -/
  | input
  /-- Nothing, at no offset. -/
  | nothing
  deriving DecidableEq, Repr

inductive SpecialFile.Sink where
  /-- The write succeeds and leaves nothing behind. -/
  | taken
  | refused (cause : Errno)
  /-- The file is not even opened for writing. -/
  | barred (cause : Errno)
  deriving DecidableEq, Repr

structure SpecialFile where
  reading : SpecialFile.Source
  writing : SpecialFile.Sink := .taken
  /-- Whether what is written goes in its order, at no offset. -/
  isQueue : Bool := false
  /-- Why the file is never opened, if it is not. -/
  absence? : Option Errno := none
  deriving DecidableEq, Repr

namespace SpecialFile

def refusal? (f : SpecialFile) (writing : Bool) : Option Errno :=
  match f.absence?, f.writing with
  | some e, _ => some e
  | none, .barred e => if writing then some e else none
  | none, _ => none

def hasOffsets (f : SpecialFile) : Bool :=
  match f.reading with
  | .bytes _ | .zeros => true
  | .input | .nothing => false

/-- Up to `length` bytes of the file from `offset` on. A stream has none. -/
def slice (f : SpecialFile) (offset length : Nat) : Bytes :=
  match f.reading with
  | .bytes b => Bytes.slice b offset length
  | .zeros => Bytes.zeros length
  | .input | .nothing => []

def objection? (f : SpecialFile) (data : Bytes) : Option Errno :=
  match f.writing with
  | .taken => none
  | .refused e | .barred e => if data.isEmpty then none else some e

def null : SpecialFile where
  reading := .bytes []

def zero : SpecialFile where
  reading := .zeros

def full : SpecialFile where
  reading := .zeros
  writing := .refused .noSpace

/-- A source of random bytes. Zeros stand for them. -/
def random : SpecialFile where
  reading := .zeros

def terminal : SpecialFile where
  reading := .bytes []
  absence? := some .noDevice

def input : SpecialFile where
  reading := .input
  isQueue := true

def output : SpecialFile where
  reading := .nothing
  isQueue := true

def report (text : String) : SpecialFile where
  reading := .bytes (Utf8.encode text)
  writing := .refused .invalidInput
  isQueue := true

def processName (text : String) : SpecialFile where
  reading := .bytes (Utf8.encode text)
  isQueue := true

def startText (text : String) : SpecialFile where
  reading := .bytes (Utf8.encode text)
  writing := .refused .invalidInput

def systemFact (text : String) : SpecialFile where
  reading := .bytes (Utf8.encode text)
  writing := .barred .permissionDenied

/-- A program that runs. Zeros stand for its code. -/
def program : SpecialFile where
  reading := .zeros
  writing := .barred .programBusy

end SpecialFile

end BootStore

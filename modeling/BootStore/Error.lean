import BootStore.Text.Quoted

/-!
# Failures

Why an operation on a store fails, as causes, and the one wording of each.
-/
namespace BootStore

inductive Errno where
  | noEntry
  | noDevice
  | badDescriptor
  | permissionDenied
  | alreadyExists
  | notDirectory
  | isDirectory
  | invalidInput
  | programBusy
  | noSpace
  | illegalSeek
  | nameTooLong
  | linkLoop
  | other (code : Nat) (description : String)
  deriving DecidableEq, Repr

def Errno.code : Errno → Nat
  | .noEntry => 2
  | .noDevice => 6
  | .badDescriptor => 9
  | .permissionDenied => 13
  | .alreadyExists => 17
  | .notDirectory => 20
  | .isDirectory => 21
  | .invalidInput => 22
  | .programBusy => 26
  | .noSpace => 28
  | .illegalSeek => 29
  | .nameTooLong => 36
  | .linkLoop => 40
  | .other code _ => code

def Errno.description : Errno → String
  | .noEntry => "No such file or directory"
  | .noDevice => "No such device or address"
  | .badDescriptor => "Bad file descriptor"
  | .permissionDenied => "Permission denied"
  | .alreadyExists => "File exists"
  | .notDirectory => "Not a directory"
  | .isDirectory => "Is a directory"
  | .invalidInput => "Invalid argument"
  | .programBusy => "Text file busy"
  | .noSpace => "No space left on device"
  | .illegalSeek => "Illegal seek"
  | .nameTooLong => "File name too long"
  | .linkLoop => "Too many levels of symbolic links"
  | .other _ description => description

inductive IoError where
  /-- The device ends before the region does. -/
  | shortRead
  /-- The device cannot grow to hold the region. -/
  | deviceFull
  | readFault
  | writeFault
  | os (report : Errno)
  deriving DecidableEq, Repr

def IoError.message : IoError → String
  | .shortRead => "short read"
  | .deviceFull => "device full"
  | .readFault => "injected read failure"
  | .writeFault => "injected write failure"
  | .os report => s!"{report.description} (os error {report.code})"

inductive BadArgument where
  | name (text : String)
  /-- The value's byte at `offset` is not printable. -/
  | value (offset : Nat)
  /-- Opening for reading only and forced initialization at once. -/
  | openMode
  | sectorCount (count limit : Nat)
  | offsetRange (a b size : Nat)
  | offsetOverlap (a b size : Nat)
  deriving DecidableEq, Repr

def BadArgument.message : BadArgument → String
  | .name text => s!"invalid variable name {Text.quote text}"
  | .value offset => s!"non-printable character at offset {offset} in value"
  | .openMode => "read-only and force-init are mutually exclusive"
  | .sectorCount count limit => s!"extension sector count {count} out of range 1..={limit}"
  | .offsetRange a b size =>
    s!"copy offsets {a} and {b} exceed the device address range ({size} bytes per copy)"
  | .offsetOverlap a b size => s!"copy offsets {a} and {b} overlap ({size} bytes per copy)"

inductive Excess where
  | nameLength (length limit : Nat)
  | list (name : String) (needed used limit : Nat)
  | region (needed room : Nat)
  | packed (length room : Nat)
  deriving DecidableEq, Repr

def Excess.message : Excess → String
  | .nameLength length limit => s!"variable name is {length} bytes, limit is {limit}"
  | .list name needed used limit =>
    s!"variable {name} needs {needed} bytes, {used} of {limit} in use"
  | .region needed room => s!"variables need {needed} bytes, region holds {room}"
  | .packed length room => s!"{length} packed bytes exceed {room} bytes of variable space"

inductive EntryDefect where
  | unterminatedName
  | unterminatedValue
  | notUtf8
  deriving DecidableEq, Repr

structure RegionDefect where
  offset : Nat
  cause : EntryDefect
  deriving DecidableEq, Repr

def RegionDefect.message (d : RegionDefect) : String :=
  match d.cause with
  | .unterminatedName => s!"unterminated name at offset {d.offset}"
  | .unterminatedValue => s!"unterminated value at offset {d.offset}"
  | .notUtf8 => s!"entry at offset {d.offset} is not valid UTF-8"

inductive StoreError where
  | invalidArgument (cause : BadArgument)
  | readOnly
  | notFound (name : String)
  | sizeExceeded (cause : Excess)
  | io (cause : IoError)
  | deviceNotFound (tried : List String)
  | lockContended (path : String)
  | noValidStore
  | parse (defect : RegionDefect)
  /-- Both copies were blanked and the fresh copy was not written: the store holds no valid copy
  until the next initialization. -/
  | indeterminate (cause : StoreError)
  deriving DecidableEq, Repr

def StoreError.message : StoreError → String
  | .invalidArgument cause => s!"Invalid argument: {cause.message}"
  | .readOnly => "Store is read-only"
  | .notFound name => s!"Variable not found: {name}"
  | .sizeExceeded cause => s!"Size exceeded: {cause.message}"
  | .io cause => s!"IO error: {cause.message}"
  | .deviceNotFound tried => s!"No storage device found (tried {Text.quoteList tried})"
  | .lockContended path => s!"Store lock is held by another process: {path}"
  | .noValidStore => "No valid boot info copy found"
  | .parse defect => s!"Variable region malformed: {defect.message}"
  | .indeterminate cause => s!"Store indeterminate after failed initialization: {cause.message}"

end BootStore

import BootStore.Command
import BootStore.Session.Progress
import BootStore.Store

/-!
# Running commands

What each command does with the store and what it answers: an exit code and what it prints. A
command first settles what it is to do, which may mean reading a value from a file, and only then
opens the store.
-/
namespace BootStore

class StandardInput (m : Type → Type) where
  readInput (limit : Nat) : m Bytes

structure Outcome where
  code : UInt8
  stdout : String := ""
  stderr : String := ""
  deriving DecidableEq, Repr

inductive CommandError where
  | store (cause : StoreError)
  | file (report : Errno)
  | valueTwice
  | emptyName
  | valueTooLarge
  | nullCharacter
  | notUtf8 (defect : Utf8.Defect)
  deriving DecidableEq, Repr

def CommandError.message : CommandError → String
  | .store cause => cause.message
  | .file report => (IoError.os report).message
  | .valueTwice => "cannot specify both value and input file"
  | .emptyName => "invalid variable name"
  | .valueTooLarge => "input value too large"
  | .nullCharacter => "null character in input value not allowed"
  | .notUtf8 ⟨start, some length⟩ =>
    s!"invalid utf-8 sequence of {length} bytes from index {start}"
  | .notUtf8 ⟨start, none⟩ => s!"incomplete utf-8 byte sequence from index {start}"

namespace Command

def programName : String := "bootinfo"

def programVersion : String := "0.1.0"

def maxFailures : UInt8 := 3

def recoveryCode : UInt8 := 77

/-- A value file of this many bytes or more is cut off here. -/
def maxFileValue : Nat := 512 * 1024

inductive Task where
  | bootSuccess
  | checkStatus
  | init (force : Bool)
  | report
  | get (name : Option String) (omitName : Bool)
  | set (name : String) (value : Option String)
  deriving DecidableEq, Repr

def Task.flags : Task → OpenFlags
  | .init force => { forceInit := force }
  | .report | .get _ _ => { readOnly := true }
  | _ => {}

def valueOfBytes (data : Bytes) : Except CommandError String :=
  if maxFileValue - 1 ≤ data.length then .error .valueTooLarge
  else if data.contains 0 then .error .nullCharacter
  else
    match Utf8.decode? data with
    | some value => .ok value
    | none => .error (.notUtf8 ((Utf8.firstDefect data).getD ⟨0, none⟩))

/-- The name and the value that `NAME=VALUE` stands for; a name alone deletes. -/
def splitAssignment (text : String) : Except CommandError (String × Option String) :=
  let name := text.toList.takeWhile (· != '=')
  match text.toList.dropWhile (· != '=') with
  | [] => .ok (text, none)
  | _ :: value =>
    if name.isEmpty then .error .emptyName
    else .ok (String.ofList name, some (String.ofList value))

section
variable {m : Type → Type} {Lock File : Type} [Monad m] [Host m Lock File] [StandardInput m]

/-- The value in a file, or on standard input for `-`. -/
def readValue (path : String) : m (Except CommandError String) := do
  if path == "-" then return valueOfBytes (← StandardInput.readInput maxFileValue)
  else
    match ← Host.readFront path maxFileValue with
    | .ok data => return valueOfBytes data
    | .error e => return .error (.file e)

def prepare : Command → m (Except CommandError Task)
  | .bootSuccess => return .ok .bootSuccess
  | .checkStatus => return .ok .checkStatus
  | .init force => return .ok (.init force)
  | .report => return .ok .report
  | .get name omitName => return .ok (.get name omitName)
  | .set name (some value) _ => return .ok (.set name (some value))
  | .set name none none => return (splitAssignment name).map fun (name, value) => .set name value
  | .set name none (some path) => do
    if name.toList.contains '=' then return .error .valueTwice
    else return (← readValue path).map fun value => .set name (some value)

end

def summary (h : Header) : String :=
  let progress := if h.inProgress then "YES" else "NO"
  let plural := if h.sectors = 1 then "" else "s"
  s!"devinfo version:\t{h.version.toNat}\n" ++
  s!"Boot in progress:\t{progress}\n" ++
  s!"Failed boots:\t\t{h.failedBoots.toNat}\n" ++
  s!"Extension space:\t{h.sectors.toNat} sector{plural}\n"

def listing (vs : Variables) : String :=
  String.join (vs.entries.map fun v => v.name ++ "=" ++ v.value ++ "\n")

def lookUp (vs : Variables) (name : String) (omitName : Bool) : Outcome :=
  match vs.get? name with
  | none => { code := 1, stderr := s!"not found: {name}\n" }
  | some value =>
    { code := 0, stdout := if omitName then value ++ "\n" else name ++ "=" ++ value ++ "\n" }

section
variable {m : Type → Type} [Monad m] [BlockDevice m]

/-- Counts a boot. When too many have failed, the state is reset for the boot after recovery. -/
def countBoot (s : Session) : m (Except StoreError Outcome × Session) := do
  match ← s.markInProgress with
  | (.error e, s) => return (.error e, s)
  | (.ok failed, s) =>
    if failed < maxFailures then return (.ok { code := 0 }, s)
    else
      let (_, s) ← s.markSuccessful
      return (.ok {
        code := recoveryCode
        stderr := "Too many boot failures, exit with error to signal boot slot switch\n" }, s)

def store (s : Session) (name : String) (value : Option String) :
    m (Except StoreError Outcome × Session) := do
  match s.set name value with
  | .error e => return (.error e, s)
  | .ok s =>
    let (result, s) ← s.commit
    return (result.map fun _ => { code := 0 }, s)

def Task.perform (t : Task) (s : Session) : m (Except StoreError Outcome × Session) := do
  match t with
  | .bootSuccess =>
    let (result, s) ← s.markSuccessful
    return (result.map fun failed =>
      { code := 0, stderr := s!"Failed boot count: {failed.toNat}\n" }, s)
  | .checkStatus => countBoot s
  | .init _ => return (.ok { code := 0 }, s)
  | .report => return (.ok { code := 0, stdout := summary s.header }, s)
  | .get none _ => return (.ok { code := 0, stdout := listing s.vars }, s)
  | .get (some name) omitName => return (.ok (lookUp s.vars name omitName), s)
  | .set name value => store s name value

end

def failed (e : CommandError) : Outcome :=
  { code := 1, stderr := s!"{programName}: {e.message}\n" }

def usage : String :=
  s!"Usage: {programName} [-d DEVICE] boot-success | check-status | init [-f] | show | " ++
  "get [NAME] [-n] | set NAME [VALUE] [-f FILE]\n"

section
variable {m : Type → Type} {Lock File : Type} [Monad m] [Host m Lock File] [StandardInput m]

def Task.run (t : Task) (settings : Settings) : m Outcome := do
  match ← Store.openConfigured settings t.flags with
  | .error e => return failed (.store e)
  | .ok opened =>
    let (result, opened) ← opened.update t.perform
    opened.close
    match result with
    | .ok outcome => return outcome
    | .error e => return failed (.store e)

def run (device : Option String) (c : Command) : m Outcome := do
  let settings : Settings :=
    match device with
    | none => {}
    | some path => { devices := [path] }
  match ← c.prepare with
  | .error e => return failed e
  | .ok task => task.run settings

def respond (arguments : List String) : m Outcome := do
  match Command.read arguments with
  | .run device command => command.run device
  | .version => return { code := 0, stdout := s!"{programName} {programVersion}\n" }
  | .help => return { code := 0, stdout := usage }
  | .usageError => return { code := 2, stderr := usage }

end

end Command

end BootStore

import BootStore.Command.Arguments

/-!
# Commands

The commands of the command line and how a list of arguments is read as one.
-/
namespace BootStore

inductive Command where
  | bootSuccess
  /-- Count a boot, and signal when too many have failed. -/
  | checkStatus
  | init (force : Bool)
  | report
  | get (name : Option String) (omitName : Bool)
  | set (name : String) (value fromFile : Option String)
  deriving DecidableEq, Repr

inductive Reading where
  | run (device : Option String) (command : Command)
  | version
  | help
  | usageError
  deriving DecidableEq, Repr

namespace Command

open Arguments

def helpForm : OptionForm := ⟨'h', "help", false⟩

def leadingForms : List OptionForm :=
  [⟨'d', "device", true⟩, ⟨'V', "version", false⟩, helpForm]

/-- The options of each command, and the most operands it takes; `none` if there is no such
command. -/
def forms? : String → Option (List OptionForm × Nat)
  | "boot-success" => some ([helpForm], 0)
  | "check-status" => some ([helpForm], 0)
  | "init" => some ([⟨'f', "force", false⟩, helpForm], 0)
  | "show" => some ([helpForm], 0)
  | "get" => some ([⟨'n', "omit-name", false⟩, helpForm], 1)
  | "set" => some ([⟨'f', "from-file", true⟩, helpForm], 2)
  | _ => none

def letter? : Given → Option Char
  | .flag c | .option c _ => some c
  | .operand _ => none

def operand? : Given → Option String
  | .operand text => some text
  | _ => none

def valueOf (c : Char) (given : List Given) : Option String :=
  given.findSome? fun
    | .option d value => if d == c then some value else none
    | _ => none

/-- Whether an argument may follow others: no option is given twice or with an empty value, and
there are at most `limit` operands. -/
def mayFollow (limit : Nat) (before : List Given) : Given → Bool
  | .flag c => !(before.filterMap letter?).contains c
  | .option c value => !value.isEmpty && !(before.filterMap letter?).contains c
  | .operand _ => (before.filterMap operand?).length < limit

/-- The reading that an argument settles at once, whatever comes after it: the first that asks for
help or for the version, or that may not follow those `before` it. -/
def interruption (limit : Nat) (before : List Given) : List Given → Option Reading
  | [] => none
  | g :: rest =>
    if !mayFollow limit before g then some .usageError
    else if g = .flag 'h' then some .help
    else if g = .flag 'V' then some .version
    else interruption limit (before ++ [g]) rest

/-- The command of a name, from its arguments. A value is given in one way only. -/
def build (name : String) (given : List Given) : Option Command :=
  let isGiven (c : Char) : Bool := (given.filterMap letter?).contains c
  match name, given.filterMap operand? with
  | "boot-success", [] => some .bootSuccess
  | "check-status", [] => some .checkStatus
  | "init", [] => some (.init (isGiven 'f'))
  | "show", [] => some .report
  | "get", [] => some (.get none (isGiven 'n'))
  | "get", [target] => some (.get (some target) (isGiven 'n'))
  | "set", [target] => some (.set target none (valueOf 'f' given))
  | "set", [target, value] => if isGiven 'f' then none else some (.set target (some value) none)
  | _, _ => none

def readHelp : List String → Reading
  | [] => .help
  | [name] => if name == "help" || (forms? name).isSome then .help else .usageError
  | _ => .usageError

def readNamed (device : Option String) (name : String) (arguments : List String) : Reading :=
  match forms? name with
  | none => if name == "help" then readHelp arguments else .usageError
  | some (forms, limit) =>
    let (given, wellFormed) := Arguments.read forms arguments
    match interruption limit [] given with
    | some reading => reading
    | none =>
      match build name given with
      | some command => if wellFormed then .run device command else .usageError
      | none => .usageError

/-- Reads a list of arguments: the options before the command, then the command. -/
def read (arguments : List String) : Reading :=
  let (given, stop) := readOptions leadingForms arguments
  match interruption 0 [] given, stop with
  | some reading, _ => reading
  | none, .operand name rest => readNamed (valueOf 'd' given) name rest
  | none, _ => .usageError

end Command

end BootStore

/-!
# Arguments

The forms of command-line options: `-x`, `-xVALUE`, `-x=VALUE`, `-x VALUE`, `--name`,
`--name=VALUE` and `--name VALUE`, with one-letter flags that may be joined, and `--` before
operands that look like options. A dash alone is an operand or a value.
-/
namespace BootStore.Arguments

structure OptionForm where
  short : Char
  long : String
  takesValue : Bool
  deriving DecidableEq, Repr

inductive Given where
  | flag (short : Char)
  | option (short : Char) (value : String)
  | operand (text : String)
  deriving DecidableEq, Repr

inductive Stop where
  | finished
  | malformed
  | operand (text : String) (rest : List String)
  /-- After `--`: all that follows are operands. -/
  | escaped (rest : List String)
  deriving DecidableEq, Repr

inductive WordEnd where
  | complete
  | malformed
  | wantsValue (short : Char)
  deriving DecidableEq, Repr

/-- The options in a word of joined letters. The first that takes a value takes the rest. -/
def readLetters (forms : List OptionForm) : List Char → List Given × WordEnd
  | [] => ([], .complete)
  | c :: rest =>
    match forms.find? (·.short == c) with
    | none => ([], .malformed)
    | some form =>
      if form.takesValue then
        match rest with
        | [] => ([], .wantsValue c)
        | '=' :: value => ([.option c (String.ofList value)], .complete)
        | value => ([.option c (String.ofList value)], .complete)
      else
        let (given, stop) := readLetters forms rest
        (.flag c :: given, stop)

def readLong (forms : List OptionForm) (word : List Char) : List Given × WordEnd :=
  let name := String.ofList (word.takeWhile (· != '='))
  match forms.find? (·.long == name), word.dropWhile (· != '=') with
  | none, _ => ([], .malformed)
  | some form, [] => if form.takesValue then ([], .wantsValue form.short) else
      ([.flag form.short], .complete)
  | some form, _ :: value =>
    if form.takesValue then ([.option form.short (String.ofList value)], .complete)
    else ([], .malformed)

inductive Shape where
  | operand
  | escape
  | options (given : List Given) (stop : WordEnd)

def shape (forms : List OptionForm) (argument : String) : Shape :=
  match argument.toList with
  | ['-', '-'] => .escape
  | '-' :: '-' :: word => let (given, stop) := readLong forms word; .options given stop
  | '-' :: c :: rest => let (given, stop) := readLetters forms (c :: rest); .options given stop
  | _ => .operand

def isValue (argument : String) : Bool :=
  match argument.toList with
  | '-' :: _ :: _ => false
  | _ => true

def readOptions (forms : List OptionForm) : List String → List Given × Stop
  | [] => ([], .finished)
  | argument :: rest =>
    match shape forms argument with
    | .operand => ([], .operand argument rest)
    | .escape => ([], .escaped rest)
    | .options given .malformed => (given, .malformed)
    | .options given .complete =>
      let (more, stop) := readOptions forms rest
      (given ++ more, stop)
    | .options given (.wantsValue short) =>
      match rest with
      | [] => (given, .malformed)
      | value :: rest =>
        if isValue value then
          let (more, stop) := readOptions forms rest
          (given ++ .option short value :: more, stop)
        else (given, .malformed)

theorem length_lt_of_operand {forms : List OptionForm} {arguments : List String} {text : String}
    {rest : List String} (h : (readOptions forms arguments).2 = .operand text rest) :
    rest.length < arguments.length := by
  fun_induction readOptions forms arguments with
  | case1 | case3 | case4 | case6 | case8 => cases h
  | case2 => cases h; simp
  | case5 _ _ _ _ _ _ hs ih =>
    rw [hs] at ih
    exact Nat.lt_succ_of_lt (ih h)
  | case7 _ _ _ _ _ _ _ _ _ hs ih =>
    rw [hs] at ih
    exact Nat.lt_succ_of_lt (Nat.lt_succ_of_lt (ih h))

/-- All of a list of arguments in order, up to the first malformed one, and whether there is
none. -/
def read (forms : List OptionForm) (arguments : List String) : List Given × Bool :=
  match _h : readOptions forms arguments with
  | (given, .finished) => (given, true)
  | (given, .malformed) => (given, false)
  | (given, .escaped rest) => (given ++ rest.map .operand, true)
  | (given, .operand text rest) =>
    let (more, wellFormed) := read forms rest
    (given ++ .operand text :: more, wellFormed)
  termination_by arguments.length
  decreasing_by exact length_lt_of_operand (congrArg Prod.snd _h)

end BootStore.Arguments

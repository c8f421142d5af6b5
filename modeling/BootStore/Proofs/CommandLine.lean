import BootStore.Command.Run
import BootStore.Proofs.Assignment

/-!
# Command lines

How the command lines are read that name a variable, and what value they give it. Names hold no
equals sign, and text of printable characters holds no zero byte.
-/
namespace BootStore

namespace Variable

theorem isNameRest_of_isName {name : String} (h : isName name = true) :
    name.toList ≠ [] ∧ ∀ c ∈ name.toList, isNameRest c = true := by
  unfold isName at h
  split at h
  · cases h
  next c rest hname =>
  rw [Bool.and_eq_true, List.all_eq_true] at h
  rw [hname]
  refine ⟨List.cons_ne_nil c rest, ?_⟩
  intro x hx
  rcases List.mem_cons.1 hx with rfl | hx
  · exact isNameRest_of_isNameStart h.1
  · exact h.2 x hx

theorem equals_notMem_of_isName {name : String} (h : isName name = true) : '=' ∉ name.toList :=
  fun hmem => absurd ((isNameRest_of_isName h).2 '=' hmem) (by decide)

end Variable

namespace Arguments

variable {forms : List OptionForm} {argument : String} {rest : List String}

def IsPlain (argument : String) : Prop := argument.toList.head? ≠ some '-'

instance (argument : String) : Decidable (IsPlain argument) := inferInstanceAs (Decidable (_ ≠ _))

theorem isPlain_of_isName {name : String} (h : Variable.isName name = true) : IsPlain name := by
  intro hdash
  exact absurd ((Variable.isNameRest_of_isName h).2 '-' (List.mem_of_head? hdash)) (by decide)

theorem IsPlain.append {text : String} (h : IsPlain text) (hne : text.toList ≠ []) (more : String) :
    IsPlain (text ++ more) := by
  obtain ⟨c, rest, htext⟩ := List.exists_cons_of_ne_nil hne
  rw [IsPlain, htext] at h
  rw [IsPlain, String.toList_append, htext]
  exact h

theorem shape_of_isPlain (h : IsPlain argument) : shape forms argument = .operand := by
  unfold shape
  rw [IsPlain] at h
  split
  next heq => simp [heq] at h
  next heq => simp [heq] at h
  next heq => simp [heq] at h
  next => rfl

theorem isValue_of_isPlain (h : IsPlain argument) : isValue argument = true := by
  unfold isValue
  rw [IsPlain] at h
  split
  next heq => simp [heq] at h
  next => rfl

variable {arguments : List String} {given : List Given}

theorem readOptions_nil : readOptions forms [] = ([], .finished) := by
  rw [readOptions]

theorem readOptions_of_isPlain (h : IsPlain argument) :
    readOptions forms (argument :: rest) = ([], .operand argument rest) := by
  rw [readOptions, shape_of_isPlain h]

theorem readOptions_flags (h : shape forms argument = .options given .complete) :
    readOptions forms (argument :: rest) =
      (given ++ (readOptions forms rest).1, (readOptions forms rest).2) := by
  rw [readOptions, h]

theorem readOptions_valued {c : Char} {value : String}
    (h : shape forms argument = .options given (.wantsValue c)) (hvalue : isValue value = true) :
    readOptions forms (argument :: value :: rest) =
      (given ++ .option c value :: (readOptions forms rest).1, (readOptions forms rest).2) := by
  rw [readOptions, h]
  exact if_pos hvalue

theorem read_of_finished (h : readOptions forms arguments = (given, .finished)) :
    read forms arguments = (given, true) := by
  rw [read]
  split
  all_goals
    next heq =>
      rw [h] at heq
      cases heq
      try rfl

theorem read_of_operand {text : String}
    (h : readOptions forms arguments = (given, .operand text rest)) :
    read forms arguments =
      (given ++ .operand text :: (read forms rest).1, (read forms rest).2) := by
  rw [read]
  split
  all_goals
    next heq =>
      rw [h] at heq
      cases heq
      try rfl

theorem read_nil : read forms [] = ([], true) := read_of_finished readOptions_nil

theorem read_of_isPlain (h : IsPlain argument) :
    read forms (argument :: rest) =
      (.operand argument :: (read forms rest).1, (read forms rest).2) :=
  read_of_operand (readOptions_of_isPlain h)

end Arguments

namespace Command

open Arguments

def leading : Option String → List String
  | none => []
  | some path => ["-d", path]

/-- The path can be told with an option: it is there, and does not look like another option. -/
def IsTellable (path : String) : Prop := path ≠ "" ∧ isValue path = true

instance (path : String) : Decidable (IsTellable path) := inferInstanceAs (Decidable (_ ∧ _))

theorem read_leading {device : Option String} (hdevice : ∀ path ∈ device, IsTellable path)
    {name : String} (hname : IsPlain name) (rest : List String) :
    read (leading device ++ name :: rest) = readNamed device name rest := by
  cases device with
  | none =>
    rw [leading, List.nil_append, read, readOptions_of_isPlain hname]
    rfl
  | some path =>
    obtain ⟨hne, hvalue⟩ := hdevice path rfl
    have hshape : shape leadingForms "-d" = .options [] (.wantsValue 'd') := by rfl
    have hinterruption : interruption 0 [] [.option 'd' path] = none := by
      simp [interruption, mayFollow, hne]
    rw [leading, List.cons_append, List.cons_append, List.nil_append, read,
      readOptions_valued hshape hvalue, readOptions_of_isPlain hname]
    simp only [List.nil_append, hinterruption]
    rfl

variable {device : Option String} {name value file : String}

theorem readNamed_get (device : Option String) (hname : Variable.isName name = true) :
    readNamed device "get" ["-n", name] = .run device (.get (some name) true) := by
  have hread : Arguments.read [⟨'n', "omit-name", false⟩, helpForm] ["-n", name] =
      ([.flag 'n', .operand name], true) := by
    have hshape : shape [⟨'n', "omit-name", false⟩, helpForm] "-n" =
        .options [.flag 'n'] .complete := by rfl
    rw [read_of_operand (by
      rw [readOptions_flags hshape, readOptions_of_isPlain (isPlain_of_isName hname)]), read_nil]
    rfl
  rw [readNamed]
  simp only [forms?, hread]
  rfl

theorem readNamed_setJoined (device : Option String) (hname : Variable.isName name = true)
    (value : String) :
    readNamed device "set" [name ++ "=" ++ value] =
      .run device (.set (name ++ "=" ++ value) none none) := by
  have hne := (Variable.isNameRest_of_isName hname).1
  have hplain : IsPlain (name ++ "=" ++ value) := by
    rw [String.append_assoc]
    exact (isPlain_of_isName hname).append hne _
  rw [readNamed]
  simp only [forms?, read_of_isPlain hplain, read_nil]
  rfl

theorem readNamed_setApart (device : Option String) (hname : Variable.isName name = true)
    (hvalue : IsPlain value) :
    readNamed device "set" [name, value] = .run device (.set name (some value) none) := by
  rw [readNamed]
  simp only [forms?, read_of_isPlain (isPlain_of_isName hname), read_of_isPlain hvalue, read_nil]
  rfl

theorem readNamed_setFromFile (device : Option String) (hname : Variable.isName name = true)
    (hfile : IsTellable file) :
    readNamed device "set" [name, "--from-file", file] =
      .run device (.set name none (some file)) := by
  obtain ⟨hne, hvalue⟩ := hfile
  have hshape : shape [⟨'f', "from-file", true⟩, helpForm] "--from-file" =
      .options [] (.wantsValue 'f') := by rfl
  have hoption : Arguments.read [⟨'f', "from-file", true⟩, helpForm] ["--from-file", file] =
      ([.option 'f' file], true) := by
    apply read_of_finished
    rw [readOptions_valued hshape hvalue, readOptions_nil]
    rfl
  have hinterruption : interruption 2 [] [.operand name, .option 'f' file] = none := by
    simp [interruption, mayFollow, hne, letter?]
  rw [readNamed]
  simp only [forms?, read_of_isPlain (isPlain_of_isName hname), hoption, hinterruption]
  rfl

theorem splitAssignment_of_isName (hname : Variable.isName name = true) (value : String) :
    splitAssignment (name ++ "=" ++ value) = .ok (name, some value) := by
  have hequals : ∀ c ∈ name.toList, (c != '=') = true := by
    intro c hc
    rw [bne_iff_ne]
    rintro rfl
    exact Variable.equals_notMem_of_isName hname hc
  have htext : (name ++ "=" ++ value).toList = name.toList ++ '=' :: value.toList := by
    rw [String.toList_append, String.toList_append, List.append_assoc]
    rfl
  have hne : name.toList.isEmpty = false :=
    List.isEmpty_eq_false_iff.2 (Variable.isNameRest_of_isName hname).1
  have hfront : (name.toList ++ '=' :: value.toList).takeWhile (· != '=') = name.toList := by
    rw [List.takeWhile_append_of_pos hequals]
    simp
  have hback : (name.toList ++ '=' :: value.toList).dropWhile (· != '=') = '=' :: value.toList := by
    rw [List.dropWhile_append_of_pos hequals]
    simp
  unfold splitAssignment
  simp only [htext, hfront, hback, hne, Bool.false_eq_true, if_false, String.ofList_toList]

theorem valueOfBytes_take (hvalue : value.toList.all Variable.isPrintable = true) :
    valueOfBytes ((Utf8.encode value).take maxFileValue) =
      if maxFileValue - 1 ≤ value.utf8ByteSize then .error .valueTooLarge else .ok value := by
  by_cases hlong : maxFileValue - 1 ≤ value.utf8ByteSize
  · have hcut : maxFileValue - 1 ≤ ((Utf8.encode value).take maxFileValue).length := by
      rw [List.length_take, Utf8.length_encode]
      omega
    rw [if_pos hlong, valueOfBytes, if_pos hcut]
  · have hwhole : (Utf8.encode value).take maxFileValue = Utf8.encode value := by
      apply List.take_of_length_le
      rw [Utf8.length_encode]
      omega
    have hclean : (Utf8.encode value).contains 0 = false := by
      rw [← Bool.not_eq_true, List.contains_iff_mem]
      exact Variable.encode_value_of_checkValue ((Variable.checkValue_eq_ok_iff value).2 hvalue)
    rw [if_neg hlong, hwhole, valueOfBytes, Utf8.length_encode, if_neg hlong, hclean]
    simp only [Bool.false_eq_true, if_false, Utf8.decode?_encode]

end Command

end BootStore

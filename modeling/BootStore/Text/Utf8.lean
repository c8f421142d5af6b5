import BootStore.Bytes

/-!
# UTF-8

Text as stored bytes and back, and where a string of bytes stops being UTF-8. The main statement is
`decode?_eq_some_iff`: a string of bytes reads as a text exactly when it is that text's encoding.
-/
namespace BootStore.Utf8

def encode (s : String) : Bytes := s.toByteArray.data.toList

def decode? (b : Bytes) : Option String := String.fromUTF8? b.toByteArray

theorem toByteArray_encode (s : String) : (encode s).toByteArray = s.toByteArray := by
  apply ByteArray.ext
  apply Array.toList_inj.mp
  simp [encode]

theorem decode?_eq_some_iff {b : Bytes} {s : String} : decode? b = some s ↔ encode s = b := by
  unfold decode? String.fromUTF8?
  constructor
  · split
    · rintro ⟨⟩
      simp [encode, String.fromUTF8]
    · nofun
  · rintro rfl
    rw [dif_pos (by rw [toByteArray_encode]; exact s.isValidUTF8), Option.some.injEq]
    exact String.toByteArray_inj.1 (toByteArray_encode s)

@[simp] theorem decode?_encode (s : String) : decode? (encode s) = some s :=
  decode?_eq_some_iff.2 rfl

theorem length_encode (s : String) : (encode s).length = s.utf8ByteSize := rfl

/-- Where a string of bytes leaves UTF-8: the index of the offending sequence, and the number of
its bytes that no text can hold, or `none` if the string ends inside the sequence. -/
structure Defect where
  start : Nat
  length : Option Nat
  deriving DecidableEq, Repr

/-- The ranges of the bytes that must follow a first byte; `none` where no sequence starts. -/
def owed (first : UInt8) : Option (List (UInt8 × UInt8)) :=
  if first ≤ 0x7F then some []
  else if first < 0xC2 then none
  else if first ≤ 0xDF then some [(0x80, 0xBF)]
  else if first = 0xE0 then some [(0xA0, 0xBF), (0x80, 0xBF)]
  else if first = 0xED then some [(0x80, 0x9F), (0x80, 0xBF)]
  else if first ≤ 0xEF then some [(0x80, 0xBF), (0x80, 0xBF)]
  else if first = 0xF0 then some [(0x90, 0xBF), (0x80, 0xBF), (0x80, 0xBF)]
  else if first ≤ 0xF3 then some [(0x80, 0xBF), (0x80, 0xBF), (0x80, 0xBF)]
  else if first = 0xF4 then some [(0x80, 0x8F), (0x80, 0xBF), (0x80, 0xBF)]
  else none

/-- Scans on from inside the sequence that began at `start`, of which `seen` bytes are read and
`rest` are owed. -/
def scan (start seen : Nat) (rest : List (UInt8 × UInt8)) : Bytes → Option Defect
  | [] => if rest.isEmpty then none else some ⟨start, none⟩
  | b :: more =>
    match rest with
    | [] =>
      match owed b with
      | none => some ⟨start + seen, some 1⟩
      | some ranges => scan (start + seen) 1 ranges more
    | (lo, hi) :: rest' =>
      if lo ≤ b ∧ b ≤ hi then scan start (seen + 1) rest' more else some ⟨start, some seen⟩

def firstDefect (b : Bytes) : Option Defect := scan 0 0 [] b

end BootStore.Utf8

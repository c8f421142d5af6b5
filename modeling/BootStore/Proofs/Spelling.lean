import BootStore.Proofs.Assignment
import Mathlib

/-!
# Spelling

How names and values are written. The names that can be set are the short ones that a regular
expression matches (`Variable.isSettable_iff`), and the values are text of printable characters.
-/
namespace BootStore

namespace Variable

def span (first last : Char) : List Char :=
  (List.range' first.toNat (last.toNat + 1 - first.toNat)).map Char.ofNat

def anyOf (chars : List Char) : RegularExpression Char := (chars.map .char).sum

def letters : List Char := span 'A' 'Z' ++ span 'a' 'z'

def digits : List Char := span '0' '9'

/-- The form of names: `[A-Za-z_][A-Za-z0-9_]*`. -/
def namePattern : RegularExpression Char :=
  anyOf ('_' :: letters) * (anyOf ('_' :: (letters ++ digits))).star

theorem mem_span {first last : Char} (hlast : last.toNat < 0xd800) (c : Char) :
    c ∈ span first last ↔ first.toNat ≤ c.toNat ∧ c.toNat ≤ last.toNat := by
  simp only [span, List.mem_map, List.mem_range'_1]
  constructor
  · rintro ⟨n, ⟨hfirst, hn⟩, rfl⟩
    have hvalid : n.isValidChar := Or.inl (by omega)
    have hcode : (Char.ofNat n).toNat = n := by
      rw [Char.ofNat, dif_pos hvalid]
      rfl
    omega
  · rintro ⟨hfirst, hc⟩
    exact ⟨c.toNat, by omega, Char.ofNat_toNat c⟩

theorem isAlpha_iff (c : Char) : c.isAlpha = true ↔ c ∈ letters := by
  rw [letters, List.mem_append, mem_span (by decide), mem_span (by decide)]
  simp [Char.isAlpha, Char.isUpper, Char.isLower, UInt32.le_iff_toNat_le]

theorem isDigit_iff (c : Char) : c.isDigit = true ↔ c ∈ digits := by
  rw [digits, mem_span (by decide)]
  simp [Char.isDigit, UInt32.le_iff_toNat_le]

theorem isNameStart_iff (c : Char) : isNameStart c = true ↔ c ∈ '_' :: letters := by
  rw [isNameStart, Bool.or_eq_true, beq_iff_eq, isAlpha_iff, List.mem_cons]

theorem isNameRest_iff (c : Char) : isNameRest c = true ↔ c ∈ '_' :: (letters ++ digits) := by
  rw [isNameRest, Bool.or_eq_true, beq_iff_eq, Char.isAlphanum, Bool.or_eq_true, isAlpha_iff,
    isDigit_iff, List.mem_cons, List.mem_append]

theorem mem_anyOf {chars w : List Char} :
    w ∈ (anyOf chars).matches' ↔ ∃ c ∈ chars, w = [c] := by
  induction chars with
  | nil => exact iff_of_false nofun nofun
  | cons c chars ih =>
    have hadd : anyOf (c :: chars) = .char c + anyOf chars := List.sum_cons
    rw [hadd, RegularExpression.matches'_add, Language.mem_add, RegularExpression.matches'_char,
      ih, List.exists_mem_cons_iff]
    rfl

theorem mem_star_anyOf {chars w : List Char} :
    w ∈ (anyOf chars).star.matches' ↔ ∀ c ∈ w, c ∈ chars := by
  rw [RegularExpression.matches'_star, Language.mem_kstar]
  constructor
  · rintro ⟨parts, rfl, hparts⟩ c hc
    obtain ⟨part, hpart, hcpart⟩ := List.mem_flatten.1 hc
    obtain ⟨d, hd, rfl⟩ := mem_anyOf.1 (hparts part hpart)
    rwa [List.mem_singleton.1 hcpart]
  · intro hw
    refine ⟨w.map ([·]), ?_, ?_⟩
    · rw [← List.flatMap_def, List.flatMap_singleton']
    · intro part hpart
      obtain ⟨c, hc, rfl⟩ := List.mem_map.1 hpart
      exact mem_anyOf.2 ⟨c, hw c hc, rfl⟩

theorem isName_iff (name : String) :
    isName name = true ↔ name.toList ∈ namePattern.matches' := by
  rw [namePattern, RegularExpression.matches'_mul, Language.mem_mul]
  simp only [mem_anyOf, mem_star_anyOf, ← isNameStart_iff, ← isNameRest_iff]
  unfold isName
  cases name.toList with
  | nil => simp
  | cons c rest => simp

theorem isSettable_iff (name : String) : IsSettable name ↔
    name.toList ∈ namePattern.matches' ∧ name.utf8ByteSize < blockSize := by
  have hlength : name.utf8ByteSize ≤ maxNameLength ↔ name.utf8ByteSize < blockSize :=
    (Nat.lt_iff_le_pred (by decide)).symm
  rw [← isName_iff, ← hlength]
  exact ⟨fun h => ⟨h.isName, h.length⟩, fun h => ⟨h.1, h.2⟩⟩

def IsPrintableText (value : String) : Prop :=
  ∀ c ∈ value.toList, 32 ≤ c.toNat ∧ c.toNat ≤ 126

theorem isPrintableText_iff (value : String) :
    IsPrintableText value ↔ value.toList.all isPrintable = true := by
  rw [List.all_eq_true]
  simp [IsPrintableText, isPrintable, Char.le_def, UInt32.le_iff_toNat_le]

instance (value : String) : Decidable (IsPrintableText value) :=
  decidable_of_iff (value.toList.all isPrintable = true) (isPrintableText_iff value).symm

end Variable

end BootStore

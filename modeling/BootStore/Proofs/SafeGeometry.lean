import BootStore.Proofs.Placement
import Mathlib

/-!
# Safe geometries

Settings are safe if the number of sectors is in range, both copies end at an offset of 64 bits, and
no byte lies in both. The check accepts these and no others (`Settings.accepts_exactly_safe`), in
integers as in 64-bit words.
-/
namespace BootStore

namespace Word

/-- The sum of two words, or the last word if the sum is none. -/
def addSaturating (x y : UInt64) : UInt64 :=
  if x + y < x then .ofNat (UInt64.size - 1) else x + y

/-- The sum of two words, if it is one. -/
def addChecked (x y : UInt64) : Option UInt64 := if x + y < x then none else some (x + y)

variable (x y : UInt64)

theorem add_lt_iff : x + y < x ↔ UInt64.size ≤ x.toNat + y.toNat := by
  have hx := x.toNat_lt
  have hy := y.toNat_lt
  rw [UInt64.lt_iff_toNat_lt, UInt64.toNat_add]
  simp only [UInt64.size]
  omega

theorem toNat_add_of_not_lt (h : ¬ x + y < x) : (x + y).toNat = x.toNat + y.toNat := by
  rw [add_lt_iff, Nat.not_le] at h
  rw [UInt64.toNat_add]
  exact Nat.mod_eq_of_lt h

theorem toNat_addSaturating :
    (addSaturating x y).toNat = min (x.toNat + y.toNat) (UInt64.size - 1) := by
  unfold addSaturating
  split
  · next hwraps =>
    rw [add_lt_iff] at hwraps
    have hlast : (UInt64.ofNat (UInt64.size - 1)).toNat = UInt64.size - 1 := rfl
    rw [hlast]
    omega
  · next hfits =>
    rw [toNat_add_of_not_lt x y hfits]
    rw [add_lt_iff] at hfits
    omega

theorem addChecked_cases :
    (UInt64.size ≤ x.toNat + y.toNat ∧ addChecked x y = none) ∨
    (x.toNat + y.toNat < UInt64.size ∧
      ∃ z, addChecked x y = some z ∧ z.toNat = x.toNat + y.toNat) := by
  by_cases hwraps : x + y < x
  · exact Or.inl ⟨(add_lt_iff x y).1 hwraps, if_pos hwraps⟩
  · refine Or.inr ⟨Nat.lt_of_not_le (mt (add_lt_iff x y).2 hwraps), x + y, if_neg hwraps, ?_⟩
    exact toNat_add_of_not_lt x y hwraps

end Word

namespace Layout

def extensionRange (l : Layout) (t : Slot) : Set Nat :=
  Set.Ico (l.extensionOffset t) (l.extensionOffset t + l.extensionSize)

end Layout

namespace Settings

def wantedSize (s : Settings) : Nat := 512 * (s.sectors.toNat + 1)

/-- The offset at which the settings ask for a copy. Without one, copy B is to come where copy A
ends, even if no device offset leads there. -/
def wantedOffset (s : Settings) : Slot → Nat
  | .a => s.offsetA.toNat
  | .b =>
    match s.offsetB with
    | some offset => offset.toNat
    | none => s.offsetA.toNat + s.wantedSize

def wantedRange (s : Settings) (t : Slot) : Set Nat :=
  Set.Ico (s.wantedOffset t) (s.wantedOffset t + s.wantedSize)

/-- Settings whose copies can be placed as they ask for. -/
structure Safe (s : Settings) : Prop where
  sectors_pos : 1 ≤ s.sectors.toNat
  sectors_le : s.sectors.toNat ≤ 1023
  reachable : ∀ t, s.wantedOffset t + s.wantedSize ≤ 2 ^ 64 - 1
  disjoint : Disjoint (s.wantedRange .a) (s.wantedRange .b)

/-- The settings' check in 64-bit words. Without an offset of its own, copy B is placed at a sum
that saturates; an end that is no word is refused. -/
def layoutInWords (s : Settings) : Except StoreError Layout :=
  if s.sectors = 0 ∨ 1023 < s.sectors then
    .error (.invalidArgument (.sectorCount s.sectors.toNat maxSectors))
  else
    let size : UInt64 := 512 + s.sectors.toUInt64 * 512
    let a := s.offsetA
    let b := s.offsetB.getD (Word.addSaturating a size)
    match Word.addChecked a size, Word.addChecked b size with
    | some endA, some endB =>
      if a < endB ∧ b < endA then
        .error (.invalidArgument (.offsetOverlap a.toNat b.toNat size.toNat))
      else .ok ⟨s.sectors, a.toNat, b.toNat⟩
    | _, _ => .error (.invalidArgument (.offsetRange a.toNat b.toNat size.toNat))

variable (s : Settings)

def unchecked : Layout := .place s.sectors s.offsetA s.offsetB

theorem wantedSize_eq : s.wantedSize = blockSize + s.sectors.toNat * sectorSize := by
  simp only [wantedSize, blockSize, sectorSize]
  omega

theorem copySize_unchecked : s.unchecked.copySize = s.wantedSize := s.wantedSize_eq.symm

theorem layout_eq : s.layout =
    if s.sectors = 0 ∨ maxSectors < s.sectors.toNat then
      .error (.invalidArgument (.sectorCount s.sectors.toNat maxSectors))
    else if offsetLimit ≤ s.unchecked.offsetA + s.wantedSize ∨
        offsetLimit ≤ s.unchecked.offsetB + s.wantedSize then
      .error (.invalidArgument (.offsetRange s.unchecked.offsetA s.unchecked.offsetB s.wantedSize))
    else if s.unchecked.offsetA < s.unchecked.offsetB + s.wantedSize ∧
        s.unchecked.offsetB < s.unchecked.offsetA + s.wantedSize then
      .error (.invalidArgument
        (.offsetOverlap s.unchecked.offsetA s.unchecked.offsetB s.wantedSize))
    else .ok s.unchecked := by
  rw [← copySize_unchecked]
  rfl

section InWords

theorem toNat_size : (512 + s.sectors.toUInt64 * 512 : UInt64).toNat = s.wantedSize := by
  have hsectors := s.sectors.toNat_lt
  have hblock : (512 : UInt64).toNat = 512 := rfl
  rw [wantedSize, UInt64.toNat_add, UInt64.toNat_mul, UInt16.toNat_toUInt64, hblock]
  omega

theorem unchecked_eq : s.unchecked = ⟨s.sectors, s.offsetA.toNat,
    (s.offsetB.getD (Word.addSaturating s.offsetA (512 + s.sectors.toUInt64 * 512))).toNat⟩ := by
  unfold unchecked
  cases hb : s.offsetB with
  | some offset => rfl
  | none =>
    rw [Option.getD_none, Word.toNat_addSaturating, toNat_size, wantedSize_eq]
    rfl

/-- Words do not change what the check decides. -/
theorem layoutInWords_eq : s.layoutInWords = s.layout := by
  have hsectors : (s.sectors = 0 ∨ 1023 < s.sectors) ↔
      (s.sectors = 0 ∨ maxSectors < s.sectors.toNat) :=
    or_congr_right UInt16.lt_iff_toNat_lt
  have hlimit : offsetLimit = UInt64.size := rfl
  rw [layoutInWords, layout_eq]
  by_cases hcount : s.sectors = 0 ∨ maxSectors < s.sectors.toNat
  · rw [if_pos hcount, if_pos (hsectors.2 hcount)]
  rw [if_neg hcount, if_neg (mt hsectors.1 hcount), unchecked_eq, ← toNat_size, hlimit]
  dsimp only
  generalize (512 + s.sectors.toUInt64 * 512 : UInt64) = size
  generalize s.offsetB.getD (Word.addSaturating s.offsetA size) = b
  rcases Word.addChecked_cases s.offsetA size with ⟨hover, hnone⟩ | ⟨hfitsA, endA, hendA, htoA⟩
  · rw [if_pos (Or.inl hover), hnone]
  rcases Word.addChecked_cases b size with ⟨hover, hnone⟩ | ⟨hfitsB, endB, hendB, htoB⟩
  · rw [if_pos (Or.inr hover), hendA, hnone]
  rw [if_neg (by omega), hendA, hendB, ← htoA, ← htoB]
  simp only [UInt64.lt_iff_toNat_lt]

end InWords

/-- Two ranges of one size that is not zero share no offset if and only if one ends before the other
begins. -/
theorem disjoint_wantedRange_iff :
    Disjoint (s.wantedRange .a) (s.wantedRange .b) ↔
      ¬ (s.wantedOffset .a < s.wantedOffset .b + s.wantedSize ∧
        s.wantedOffset .b < s.wantedOffset .a + s.wantedSize) := by
  have hpos : 0 < s.wantedSize := Nat.mul_pos (by decide) (Nat.succ_pos _)
  rw [wantedRange, wantedRange, Set.Ico_disjoint_Ico]
  omega

theorem offset_unchecked (h : s.wantedOffset .a + s.wantedSize < offsetLimit) (t : Slot) :
    s.unchecked.offset t = s.wantedOffset t := by
  cases t with
  | a => rfl
  | b =>
    have hsize := s.wantedSize_eq
    simp only [wantedOffset] at h
    simp only [Layout.offset, unchecked, Layout.place, wantedOffset]
    cases s.offsetB with
    | some offset => rfl
    | none =>
      dsimp only
      omega

theorem beyond_iff :
    (offsetLimit ≤ s.unchecked.offsetA + s.wantedSize ∨
      offsetLimit ≤ s.unchecked.offsetB + s.wantedSize) ↔
    ¬ ∀ t, s.wantedOffset t + s.wantedSize ≤ 2 ^ 64 - 1 := by
  have hlimit : ∀ n, n ≤ 2 ^ 64 - 1 ↔ n < offsetLimit := fun n => Nat.le_sub_one_iff_lt (by decide)
  have ha : s.unchecked.offsetA = s.wantedOffset .a := rfl
  have hall : (∀ t, s.wantedOffset t + s.wantedSize ≤ 2 ^ 64 - 1) ↔
      s.wantedOffset .a + s.wantedSize < offsetLimit ∧
        s.wantedOffset .b + s.wantedSize < offsetLimit := by
    constructor
    · exact fun h => ⟨(hlimit _).1 (h .a), (hlimit _).1 (h .b)⟩
    · rintro ⟨h, h'⟩ (_ | _)
      · exact (hlimit _).2 h
      · exact (hlimit _).2 h'
  rw [hall, ha]
  by_cases hfits : s.wantedOffset .a + s.wantedSize < offsetLimit
  · have hb : s.unchecked.offsetB = s.wantedOffset .b := s.offset_unchecked hfits .b
    rw [hb]
    omega
  · exact iff_of_true (Or.inl (Nat.le_of_not_lt hfits)) fun h => hfits h.1

/-- The check accepts what is safe and refuses the rest. -/
theorem layout_cases :
    (s.Safe ∧ s.layout = .ok s.unchecked) ∨
    (¬ s.Safe ∧ ∃ cause, s.layout = .error (.invalidArgument cause)) := by
  rw [layout_eq]
  by_cases hcount : s.sectors = 0 ∨ maxSectors < s.sectors.toNat
  · refine Or.inr ⟨?_, _, if_pos hcount⟩
    intro hsafe
    have hpos := hsafe.sectors_pos
    have hle : s.sectors.toNat ≤ maxSectors := hsafe.sectors_le
    rcases hcount with hzero | hmany
    · rw [hzero] at hpos
      exact absurd hpos (by decide)
    · omega
  rw [if_neg hcount]
  by_cases hbeyond : offsetLimit ≤ s.unchecked.offsetA + s.wantedSize ∨
      offsetLimit ≤ s.unchecked.offsetB + s.wantedSize
  · exact Or.inr ⟨fun hsafe => s.beyond_iff.1 hbeyond hsafe.reachable, _, if_pos hbeyond⟩
  rw [if_neg hbeyond]
  have hreach := not_not.1 (mt s.beyond_iff.2 hbeyond)
  have hoverlap := s.disjoint_wantedRange_iff
  have hb : s.unchecked.offsetB = s.wantedOffset .b :=
    s.offset_unchecked (Nat.lt_of_le_pred (by decide) (hreach .a)) .b
  rw [← hb] at hoverlap
  by_cases hmeet : s.unchecked.offsetA < s.unchecked.offsetB + s.wantedSize ∧
      s.unchecked.offsetB < s.unchecked.offsetA + s.wantedSize
  · exact Or.inr ⟨fun hsafe => hoverlap.1 hsafe.disjoint hmeet, _, if_pos hmeet⟩
  · refine Or.inl ⟨⟨?_, ?_, hreach, hoverlap.2 hmeet⟩, if_neg hmeet⟩
    · exact Nat.pos_of_ne_zero fun h => hcount (Or.inl (UInt16.toNat_inj.1 h))
    · exact Nat.le_of_not_lt fun h => hcount (Or.inr h)

theorem Safe.offset_eq {s : Settings} (h : s.Safe) (t : Slot) :
    s.unchecked.offset t = s.wantedOffset t ∧
      s.unchecked.extensionOffset? t = some (s.wantedOffset t + 512) ∧
      s.unchecked.extensionRange t ⊆ s.wantedRange t := by
  have hlimit : ∀ t, s.wantedOffset t + s.wantedSize < offsetLimit :=
    fun t => Nat.lt_of_le_pred (by decide) (h.reachable t)
  have hoffset := s.offset_unchecked (hlimit .a) t
  have hend := hlimit t
  have hsize := s.copySize_unchecked
  have hblock : blockSize = 512 := rfl
  rw [Layout.copySize] at hsize
  refine ⟨hoffset, ?_, ?_⟩
  · rw [Layout.extensionOffset?, Layout.extensionOffset, hoffset, if_pos (by omega), hblock]
  · rw [Layout.extensionRange, Layout.extensionOffset, hoffset, wantedRange]
    exact Set.Ico_subset_Ico (Nat.le_add_right _ _) (by omega)

/-- The check accepts exactly the safe geometries. It accepts settings if and only if they are safe
in exact integers, refuses the others as an argument that is not valid, and decides in 64-bit words
what it decides in integers. The layout has the copies where they were asked for. Both extensions
begin at an offset of 64 bits and lie in their copies, and the header fields, the variables and the
checksum make up a copy, with room for the four bytes that the limit on variables leaves. -/
theorem accepts_exactly_safe :
    ((∃ l, s.layout = .ok l) ↔ s.Safe) ∧
    (¬ s.Safe → ∃ cause, s.layout = .error (.invalidArgument cause)) ∧
    s.layoutInWords = s.layout ∧
    ∀ l, s.layout = .ok l →
      l.sectors = s.sectors ∧ l.copySize = s.wantedSize ∧
      (∀ t, l.offset t = s.wantedOffset t ∧
        l.extensionOffset? t = some (s.wantedOffset t + 512) ∧
        l.extensionRange t ⊆ s.wantedRange t) ∧
      20 + l.variableSpace + 4 = l.copySize ∧ l.variableLimit + 4 = l.variableSpace := by
  refine ⟨?_, ?_, s.layoutInWords_eq, ?_⟩
  · rcases s.layout_cases with ⟨hsafe, hok⟩ | ⟨hnot, cause, herror⟩
    · exact iff_of_true ⟨_, hok⟩ hsafe
    · refine iff_of_false ?_ hnot
      rw [herror]
      exact nofun
  · intro hnot
    exact s.layout_cases.resolve_left (fun h => hnot h.1) |>.2
  · intro l hl
    rcases s.layout_cases with ⟨hsafe, hok⟩ | ⟨-, cause, herror⟩
    · obtain rfl : s.unchecked = l := Except.ok.inj (hok.symm.trans hl)
      have hsize := s.copySize_unchecked
      have hblock : 512 ≤ s.wantedSize := Nat.le_mul_of_pos_right 512 (Nat.succ_pos _)
      simp only [Layout.variableLimit, Layout.variableSpace, headerSize, checksumSize]
      exact ⟨rfl, hsize, hsafe.offset_eq, by omega, by omega⟩
    · rw [herror] at hl
      cases hl

/-- Copy B lies directly before copy A, which ends at the last offset. One byte further on, copy A
cannot be placed. -/
theorem accepts_exactly_safe_at_the_end :
    let s : Settings :=
      { sectors := 1, offsetA := 18446744073709550591, offsetB := some 18446744073709549567 }
    let further : Settings := { s with offsetA := 18446744073709550592 }
    (∃ l, s.layout = .ok l ∧ l.offset .a + l.copySize = 2 ^ 64 - 1 ∧
      l.offset .b + l.copySize = l.offset .a ∧
      l.extensionOffset? .a = some 18446744073709551103) ∧
    ∃ cause, further.layout = .error (.invalidArgument cause) := by
  intro s further
  obtain ⟨haccepts, -, -, hplaced⟩ := s.accepts_exactly_safe
  have hsafe : s.Safe := by
    refine ⟨by decide, by decide, ?_, s.disjoint_wantedRange_iff.2 (by decide +kernel)⟩
    intro t
    cases t with
    | a => decide +kernel
    | b => decide +kernel
  obtain ⟨l, hl⟩ := haccepts.2 hsafe
  obtain ⟨-, hsize, hoffsets, -⟩ := hplaced l hl
  obtain ⟨ha, hextension, -⟩ := hoffsets .a
  obtain ⟨hb, -, -⟩ := hoffsets .b
  refine ⟨⟨l, hl, ?_, ?_, hextension⟩, ?_⟩
  · rw [ha, hsize]
    decide +kernel
  · rw [ha, hb, hsize]
    decide +kernel
  · obtain ⟨-, hrefuses, -⟩ := further.accepts_exactly_safe
    refine hrefuses fun h => ?_
    exact absurd (h.reachable .a) (by decide +kernel)

end Settings

end BootStore

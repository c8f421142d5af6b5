import BootStore.Proofs.Assignment
import BootStore.Proofs.Window

/-!
# Packing

What a region holds once a list is packed into it, at once or entry by entry (`Region.pack_cases`).
Any list that a store can come by reads back as it was (`Region.packed_list_reads_back`).
-/
namespace BootStore

namespace Bytes

theorem overwrite_overwrite_next (b : Bytes) (offset : Nat) (x y : Bytes) :
    overwrite (overwrite b offset x) (offset + x.length) y = overwrite b offset (x ++ y) := by
  apply ext_getD
  · rw [length_overwrite, length_overwrite, length_overwrite, List.length_append]
    omega
  · intro i _
    rw [getD_overwrite, getD_overwrite, getD_overwrite, getD_append, List.length_append]
    by_cases hx : offset ≤ i ∧ i < offset + x.length
    · rw [if_neg (by omega), if_pos hx, if_pos (by omega), if_pos (by omega)]
    · by_cases hy : offset + x.length ≤ i ∧ i < offset + x.length + y.length
      · rw [if_pos hy, if_pos (by omega), if_neg (by omega)]
        congr 1
        omega
      · rw [if_neg hy, if_neg hx, if_neg (by omega)]

theorem overwrite_zero {b data : Bytes} : overwrite b 0 data = data ++ b.drop data.length := by
  rw [overwrite, Nat.zero_sub, Nat.zero_add]
  rfl

end Bytes

namespace Variables

def runningSize (vs : Variables) : Nat := vs.entries.foldl (fun n v => n + v.packedSize) 0

/-- A running size after a variable of the list was set: less what the name's entry took, and more by
what the new one takes. -/
def resize (vs : Variables) (size : Nat) (name : String) (value : Option String) : Nat :=
  match value.filter (!·.isEmpty) with
  | none => size - vs.takenBy name
  | some v => size - vs.takenBy name + (Variable.mk name v).packedSize

/-- A list as a store comes by it, with its running size: read from a region, then changed. A change
that fails leaves both as they are. -/
inductive Obtained : Variables → Nat → Prop where
  | read (region : Bytes) :
      Obtained (Region.readTolerant region).1 (Region.readTolerant region).1.runningSize
  | set {vs after : Variables} {size : Nat} {name : String} {value : Option String} {limit : Nat} :
      Obtained vs size → vs.set name value limit = .ok after →
      Obtained after (vs.resize size name value)
  | remove {vs after : Variables} {size : Nat} {name : String} :
      Obtained vs size → vs.remove name = .ok after → Obtained after (vs.resize size name none)
  | preserved {vs : Variables} {size : Nat} :
      Obtained vs size → Obtained vs.preserved vs.preserved.runningSize

theorem runningSize_eq (vs : Variables) : vs.runningSize = vs.packedSize := by
  have hfrom : ∀ (entries : List Variable) n,
      entries.foldl (fun n v => n + v.packedSize) n = n + Variable.totalSize entries := by
    intro entries
    induction entries with
    | nil => exact fun n => rfl
    | cons v entries ih =>
      intro n
      rw [List.foldl_cons, ih, totalSize_cons, Nat.add_assoc]
  rw [runningSize, hfrom, Nat.zero_add, vs.packedSize_eq]

theorem resize_eq {vs after : Variables} {name : String} {value : Option String} {limit : Nat}
    (hset : vs.set name value limit = .ok after) :
    vs.resize vs.packedSize name value = after.packedSize := by
  unfold resize
  rcases set_cases hset with ⟨hnone, rfl⟩ | ⟨v, hv, -, -, rfl⟩
  · rw [hnone]
    exact (packedSize_erase vs name).symm
  · rw [hv]
    exact (packedSize_insert vs name v).symm

namespace Obtained

variable {vs : Variables} {size : Nat}

theorem storable (h : vs.Obtained size) : vs.Storable := by
  induction h with
  | read region => exact Region.storable_readTolerant region
  | set _ hset ih => exact ih.set hset
  | @remove vs after _ name _ hremove ih =>
    have hset : vs.set name none 0 = .ok after := hremove
    exact ih.set hset
  | preserved _ ih => exact ih.preserved

/-- The running size is what the list takes when it is packed. -/
theorem size_eq (h : vs.Obtained size) : size = vs.packedSize := by
  induction h with
  | read region => exact runningSize_eq _
  | set _ hset ih =>
    rw [ih]
    exact resize_eq hset
  | @remove vs after _ name _ hremove ih =>
    have hset : vs.set name none 0 = .ok after := hremove
    rw [ih]
    exact resize_eq hset
  | preserved => exact runningSize_eq _

end Obtained

end Variables

namespace Region

theorem write_cases (vs : Variables) (region : Bytes) :
    (vs.packedSize + 1 ≤ region.length ∧ write vs region =
      .ok (vs.packedSize + 1, encode vs ++ region.drop (vs.packedSize + 1))) ∨
    (region.length < vs.packedSize + 1 ∧ write vs region =
      .error (.sizeExceeded (.region (vs.packedSize + 1) region.length))) := by
  unfold write
  simp only [length_encode]
  by_cases hfull : region.length < vs.packedSize + 1
  · exact Or.inr ⟨hfull, if_pos hfull⟩
  · exact Or.inl ⟨Nat.le_of_not_lt hfull, if_neg hfull⟩

/-- Packs entries one after another from `pos` on, where `room` bytes are left before the end
mark's. Those before the first that does not fit stay packed. -/
def packFrom (region : Bytes) (pos room : Nat) : List Variable → Option Nat × Bytes
  | [] => (some (pos + 1), Bytes.overwrite region pos [0])
  | v :: rest =>
    if room < v.packedSize then (none, region)
    else packFrom (Bytes.overwrite region pos v.encode) (pos + v.packedSize) (room - v.packedSize)
      rest

def pack (vs : Variables) (region : Bytes) : Except StoreError Nat × Bytes :=
  let tooLarge := .error (.sizeExceeded (.region (vs.packedSize + 1) region.length))
  match region.length with
  | 0 => (tooLarge, region)
  | room + 1 =>
    match packFrom region 0 room vs.entries with
    | (some n, after) => (.ok n, after)
    | (none, after) => (tooLarge, after)

theorem packFrom_cases (entries : List Variable) (region : Bytes) (pos room : Nat)
    (hregion : pos + room + 1 = region.length) :
    let vs : Variables := .of entries
    (vs.packedSize ≤ room ∧ packFrom region pos room entries =
      (some (pos + vs.packedSize + 1), Bytes.overwrite region pos (encode vs))) ∨
    (room < vs.packedSize ∧ (packFrom region pos room entries).1 = none ∧
      (packFrom region pos room entries).2.length = region.length) := by
  induction entries generalizing region pos room with
  | nil => exact Or.inl ⟨Nat.zero_le _, rfl⟩
  | cons v rest ih =>
    intro vs
    have hsize : vs.packedSize = v.packedSize + (Variables.of rest).packedSize := rfl
    by_cases hv : room < v.packedSize
    · rw [packFrom, if_pos hv]
      exact Or.inr ⟨by omega, rfl, rfl⟩
    · have hlen : (Bytes.overwrite region pos v.encode).length = region.length := by
        rw [Bytes.length_overwrite, Variable.length_encode]
        omega
      have hencode : Bytes.overwrite (Bytes.overwrite region pos v.encode) (pos + v.packedSize)
          (encode (.of rest)) = Bytes.overwrite region pos (encode vs) := by
        rw [← Variable.length_encode, Bytes.overwrite_overwrite_next]
        congr 1
        rw [encode, encode, ← List.append_assoc]
        rfl
      rw [packFrom, if_neg hv]
      rcases ih (Bytes.overwrite region pos v.encode) (pos + v.packedSize) (room - v.packedSize)
        (by omega) with ⟨hfits, hpack⟩ | ⟨hfull, hpack⟩
      · left
        rw [hpack, hencode, hsize, Nat.add_assoc pos]
        exact ⟨by omega, rfl⟩
      · right
        rw [hlen] at hpack
        exact ⟨by omega, hpack⟩

/-- Packing in place does what packing at once does, or finds no room as it does. -/
theorem pack_cases (vs : Variables) (region : Bytes) :
    (∃ n after, write vs region = .ok (n, after) ∧ pack vs region = (.ok n, after)) ∨
    ∃ e, write vs region = .error e ∧ (pack vs region).1 = .error e ∧
      (pack vs region).2.length = region.length := by
  rcases write_cases vs region with ⟨hroom, hwrite⟩ | ⟨hfull, hwrite⟩
  · obtain ⟨room, hlen⟩ : ∃ room, region.length = room + 1 := ⟨region.length - 1, by omega⟩
    refine Or.inl ⟨_, _, hwrite, ?_⟩
    rcases packFrom_cases vs.entries region 0 room (by omega) with ⟨-, hpack⟩ | ⟨hover, -⟩
    · rw [vs.of_entries, Bytes.overwrite_zero, length_encode, Nat.zero_add] at hpack
      simp only [pack, hlen, hpack]
    · rw [vs.of_entries] at hover
      omega
  · refine Or.inr ⟨_, hwrite, ?_⟩
    unfold pack
    cases hlen : region.length with
    | zero => exact ⟨rfl, hlen⟩
    | succ room =>
      rcases packFrom_cases vs.entries region 0 room (by omega) with
        ⟨hfits, -⟩ | ⟨-, hnone, hsame⟩
      · rw [vs.of_entries] at hfits
        omega
      · have hsplit : packFrom region 0 room vs.entries =
            (none, (packFrom region 0 room vs.entries).2) := Prod.ext hnone rfl
        simp only
        rw [hsplit]
        exact ⟨rfl, hsame.trans hlen⟩

theorem pack_of_write {vs : Variables} {region after : Bytes} {n : Nat}
    (hwrite : write vs region = .ok (n, after)) : pack vs region = (.ok n, after) := by
  rcases pack_cases vs region with ⟨_, _, hok, hpack⟩ | ⟨_, herr, -⟩
  · rw [hok] at hwrite
    cases hwrite
    exact hpack
  · rw [herr] at hwrite
    cases hwrite

theorem pack_of_write_error {vs : Variables} {region : Bytes} {e : StoreError}
    (hwrite : write vs region = .error e) :
    (pack vs region).1 = .error e ∧ (pack vs region).2.length = region.length := by
  rcases pack_cases vs region with ⟨_, _, hok, -⟩ | ⟨_, herr, hpack⟩
  · rw [hok] at hwrite
    cases hwrite
  · rw [herr] at hwrite
    cases hwrite
    exact hpack

theorem pack_eq_ok_iff (vs : Variables) (region : Bytes) :
    (∃ k, (pack vs region).1 = .ok k) ↔ vs.packedSize < region.length := by
  rcases write_cases vs region with ⟨hroom, hok⟩ | ⟨hfull, herr⟩
  · rw [pack_of_write hok]
    exact iff_of_true ⟨_, rfl⟩ hroom
  · refine iff_of_false ?_ (by omega)
    rw [(pack_of_write_error herr).1]
    exact nofun

/-- What stands in a region once a list was packed into it. -/
theorem packed_region {vs : Variables} (h : vs.Storable) {region : Bytes}
    (hroom : vs.packedSize + 1 ≤ region.length) :
    let after := encode vs ++ region.drop (vs.packedSize + 1)
    after.length = region.length ∧ (∀ i, vs.packedSize + 1 ≤ i → after[i]? = region[i]?) ∧
      read after = .ok vs := by
  have hsize := length_encode vs
  refine ⟨?_, ?_, ?_⟩
  · rw [List.length_append, hsize, List.length_drop]
    omega
  · intro i hi
    rw [List.getElem?_append_right (by omega), List.getElem?_drop, hsize, Nat.add_sub_cancel' hi]
  · rw [read, readTolerant_encode h]

/-- Packing a list that was obtained succeeds if and only if the region has room for the list and
its end mark, and otherwise says how much of each there is. It gives the number of bytes that it has
written and leaves those behind them, and the whole region then reads as the list: the same names and
values in the same order, and with the same running size. The loop over the entries, which counts
down the room, does the same. -/
theorem packed_list_reads_back {vs : Variables} {size : Nat} (h : vs.Obtained size)
    (region : Bytes) :
    (((∃ n after, write vs region = .ok (n, after)) ↔ size + 1 ≤ region.length) ∧
    (∀ e, write vs region = .error e → e = .sizeExceeded (.region (size + 1) region.length)) ∧
    ∀ n after, write vs region = .ok (n, after) →
      n = size + 1 ∧ after.length = region.length ∧ (∀ i, n ≤ i → after[i]? = region[i]?) ∧
      read after = .ok vs ∧ vs.runningSize = size) ∧
    ((∃ n, (pack vs region).1 = .ok n) ↔ size + 1 ≤ region.length) ∧
    (∀ e, (pack vs region).1 = .error e →
      e = .sizeExceeded (.region (size + 1) region.length)) ∧
    ∀ n after, pack vs region = (.ok n, after) →
      n = size + 1 ∧ after.length = region.length ∧ (∀ i, n ≤ i → after[i]? = region[i]?) ∧
      read after = .ok vs ∧ vs.runningSize = size := by
  obtain rfl := h.size_eq
  rcases write_cases vs region with ⟨hroom, hwrite⟩ | ⟨hfull, hwrite⟩
  · obtain ⟨hlength, hkept, hback⟩ := packed_region h.storable hroom
    rw [pack_of_write hwrite, hwrite]
    refine ⟨⟨iff_of_true ⟨_, _, rfl⟩ hroom, nofun, ?_⟩, iff_of_true ⟨_, rfl⟩ hroom, nofun, ?_⟩
    · rintro n after ⟨⟩
      exact ⟨rfl, hlength, hkept, hback, vs.runningSize_eq⟩
    · rintro n after ⟨⟩
      exact ⟨rfl, hlength, hkept, hback, vs.runningSize_eq⟩
  · have herr := (pack_of_write_error hwrite).1
    have hno := Nat.not_le_of_lt hfull
    rw [hwrite, herr]
    refine ⟨⟨iff_of_false nofun hno, ?_, nofun⟩, iff_of_false nofun hno, ?_, ?_⟩
    · rintro e ⟨⟩
      rfl
    · rintro e ⟨⟩
      rfl
    · intro n after hok
      rw [hok] at herr
      cases herr

/-- Two variables of one name, the first of them empty, were read from a region that they fill, and a
third was set. They are packed into a region that is a byte too long for them. -/
theorem packed_list_reads_back_duplicates :
    let vs : Variables := .of [⟨"A", ""⟩, ⟨"A", "1"⟩, ⟨"B", "x"⟩]
    let region : Bytes := List.replicate 13 255
    vs.Obtained 11 ∧ ∃ after, write vs region = .ok (12, after) ∧
      pack vs region = (.ok 12, after) ∧ after[12]? = some 255 ∧ read after = .ok vs := by
  intro vs region
  let old : Variables := .of [⟨"A", ""⟩, ⟨"A", "1"⟩]
  have hold : old.Storable := by decide +kernel
  have hread : old.Obtained 7 := by
    have hfull : (readTolerant (old.entries.flatMap Variable.encode ++ [])).1 = old :=
      congrArg Prod.fst (readTolerant_flatMap hold rfl)
    have hobtained := Variables.Obtained.read (old.entries.flatMap Variable.encode ++ [])
    rw [hfull] at hobtained
    exact hobtained
  have hset : old.set "B" (some "x") 100 = .ok vs := by rfl
  have hobtained : vs.Obtained 11 := hread.set hset
  obtain ⟨⟨hroom, -, hafter⟩, -⟩ := packed_list_reads_back hobtained region
  obtain ⟨n, after, hwrite⟩ := hroom.2 (by decide)
  obtain ⟨rfl, -, hkept, hback, -⟩ := hafter n after hwrite
  exact ⟨hobtained, after, hwrite, pack_of_write hwrite, hkept 12 (by decide), hback⟩

end Region

end BootStore

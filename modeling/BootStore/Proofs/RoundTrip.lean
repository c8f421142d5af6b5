import BootStore.Variables.Region

/-!
# Round trip

A list whose names are not empty and whose names and values hold no zero byte reads back from its
packed form, whatever follows the end mark (`Region.readTolerant_encode`). Every list that a store
can hold is of this kind.
-/
namespace BootStore

/-- A variable that can be told from the bytes around it once it is packed. -/
structure Variable.Storable (v : Variable) : Prop where
  name_ne : Utf8.encode v.name ≠ []
  name_clean : 0 ∉ Utf8.encode v.name
  value_clean : 0 ∉ Utf8.encode v.value

instance (v : Variable) : Decidable v.Storable :=
  decidable_of_iff (Utf8.encode v.name ≠ [] ∧ 0 ∉ Utf8.encode v.name ∧ 0 ∉ Utf8.encode v.value)
    ⟨fun h => ⟨h.1, h.2.1, h.2.2⟩, fun h => ⟨h.name_ne, h.name_clean, h.value_clean⟩⟩

def Variables.Storable (vs : Variables) : Prop := ∀ v ∈ vs.entries, v.Storable

instance (vs : Variables) : Decidable vs.Storable := List.decidableBAll _ vs.entries

namespace Utf8

theorem encode_eq_flatMap (s : String) : encode s = s.toList.flatMap String.utf8EncodeChar := by
  rw [encode, ← String.utf8Encode_toList, List.utf8Encode, List.toList_data_toByteArray]

theorem zero_notMem_encode {s : String} (h : ∀ c ∈ s.toList, 0 < c.toNat ∧ c.toNat ≤ 0x7F) :
    0 ∉ encode s := by
  rw [encode_eq_flatMap, List.mem_flatMap]
  rintro ⟨c, hc, hmem⟩
  obtain ⟨hpos, hle⟩ := h c hc
  have hone : String.utf8EncodeChar c = [UInt8.ofNat c.toNat] := if_pos hle
  rw [hone, List.mem_singleton] at hmem
  have hzero := congrArg UInt8.toNat hmem
  simp at hzero
  omega

end Utf8

namespace Variable

theorem ascii_of_isPrintable {c : Char} (h : isPrintable c = true) :
    0 < c.toNat ∧ c.toNat ≤ 0x7F := by
  simp only [isPrintable, Bool.and_eq_true, decide_eq_true_eq, Char.le_def, UInt32.le_iff_toNat_le]
    at h
  have hlo : (' ' : Char).val.toNat = 32 := rfl
  have hhi : ('~' : Char).val.toNat = 126 := rfl
  rw [hlo, hhi] at h
  have hc : c.toNat = c.val.toNat := rfl
  omega

theorem ascii_of_isNameRest {c : Char} (h : isNameRest c = true) :
    0 < c.toNat ∧ c.toNat ≤ 0x7F := by
  have hc : c.toNat = c.val.toNat := rfl
  rw [isNameRest, Bool.or_eq_true, beq_iff_eq] at h
  rcases h with rfl | h
  · decide
  · have hranges : c.isAlphanum = ((decide (65 ≤ c.val ∧ c.val ≤ 90) ||
        (decide (97 ≤ c.val) && decide (c.val ≤ 122))) ||
          (decide (48 ≤ c.val) && decide (c.val ≤ 57))) := rfl
    rw [hranges] at h
    simp only [Bool.or_eq_true, Bool.and_eq_true, decide_eq_true_eq, UInt32.le_iff_toNat_le] at h
    simp at h
    omega

theorem isNameRest_of_isNameStart {c : Char} (h : isNameStart c = true) : isNameRest c = true := by
  simp only [isNameStart, Bool.or_eq_true] at h
  simp only [isNameRest, Char.isAlphanum, Bool.or_eq_true]
  rcases h with h | h
  · exact Or.inl h
  · exact Or.inr (Or.inl h)

theorem encode_name_of_checkName {name : String} (h : checkName name = .ok ()) :
    Utf8.encode name ≠ [] ∧ 0 ∉ Utf8.encode name := by
  have hname : isName name = true := by
    unfold checkName at h
    split at h
    · assumption
    · cases h
  unfold isName at hname
  split at hname
  · cases hname
  next c rest hlist =>
  rw [Bool.and_eq_true, List.all_eq_true] at hname
  constructor
  · rw [Utf8.encode_eq_flatMap, hlist, List.flatMap_cons]
    intro hnil
    exact String.utf8EncodeChar_ne_nil (List.append_eq_nil_iff.1 hnil).1
  · apply Utf8.zero_notMem_encode
    intro x hx
    rw [hlist] at hx
    rcases List.mem_cons.1 hx with rfl | hx
    · exact ascii_of_isNameRest (isNameRest_of_isNameStart hname.1)
    · exact ascii_of_isNameRest (hname.2 x hx)

theorem encode_value_of_checkValue {value : String} (h : checkValue value = .ok ()) :
    0 ∉ Utf8.encode value := by
  apply Utf8.zero_notMem_encode
  intro c hc
  unfold checkValue at h
  split at h
  next hnone =>
    have hall := List.findIdx?_eq_none_iff.1 hnone c hc
    exact ascii_of_isPrintable (by simpa using hall)
  · cases h

end Variable

namespace Region

theorem splitZero?_append {field : Bytes} (h : 0 ∉ field) (rest : Bytes) :
    splitZero? (field ++ 0 :: rest) = some (field, rest) := by
  have hp : ∀ x ∈ field, (x != 0) = true := by
    intro x hx
    rw [bne_iff_ne]
    rintro rfl
    exact h hx
  rw [splitZero?, List.dropWhile_append_of_pos hp, List.takeWhile_append_of_pos hp]
  simp

theorem zero_notMem_of_splitZero? {b field rest : Bytes} (h : splitZero? b = some (field, rest)) :
    0 ∉ field := by
  unfold splitZero? at h
  split at h
  · cases h
  · cases h
    intro hmem
    have := List.all_eq_true.1 (List.all_takeWhile (p := (· != 0)) (l := b)) 0 hmem
    exact absurd this (by decide)

theorem readEntry_encode {v : Variable} (hv : v.Storable) (rest : Bytes) :
    readEntry (v.encode ++ rest) = .ok (v, rest) := by
  have hsplit : v.encode ++ rest =
      Utf8.encode v.name ++ 0 :: (Utf8.encode v.value ++ 0 :: rest) := by
    simp [Variable.encode]
  rw [readEntry, hsplit, splitZero?_append hv.name_clean]
  simp only [splitZero?_append hv.value_clean, Utf8.decode?_encode]

theorem head_encode_ne {v : Variable} (hv : v.Storable) (rest : Bytes) :
    (v.encode ++ rest).headD 0 ≠ 0 := by
  cases hname : Utf8.encode v.name with
  | nil => exact absurd hname hv.name_ne
  | cons x xs =>
    have hx : x ≠ 0 := by
      rintro rfl
      exact hv.name_clean (by rw [hname]; exact List.mem_cons_self)
    simpa [Variable.encode, hname] using hx

theorem readFrom_append (entries : List Variable) (h : ∀ v ∈ entries, v.Storable)
    (offset : Nat) (done : List Variable) (rest : Bytes) :
    readFrom offset done (entries.flatMap Variable.encode ++ rest) =
      readFrom (offset + Variable.totalSize entries) (entries.reverse ++ done) rest := by
  induction entries generalizing offset done with
  | nil => rfl
  | cons v entries ih =>
    have hv := h v List.mem_cons_self
    have hmore : ∀ w ∈ entries, w.Storable := fun w hw => h w (List.mem_cons_of_mem v hw)
    have hsize : offset + v.packedSize + Variable.totalSize entries =
        offset + Variable.totalSize (v :: entries) := by
      rw [Variables.totalSize_cons, Nat.add_assoc]
    rw [List.flatMap_cons, List.append_assoc, readFrom, if_neg (head_encode_ne hv _)]
    split
    next hread =>
      rw [readEntry_encode hv] at hread
      cases hread
    next hread =>
      rw [readEntry_encode hv] at hread
      cases hread
      rw [ih hmore, hsize, List.reverse_cons, List.append_assoc]
      rfl

theorem readFrom_encode (entries : List Variable) (h : ∀ v ∈ entries, v.Storable)
    (offset : Nat) (done : List Variable) {rest : Bytes} (hrest : rest.headD 0 = 0) :
    readFrom offset done (entries.flatMap Variable.encode ++ rest) =
      (.of (done.reverse ++ entries), none) := by
  rw [readFrom_append entries h, readFrom, if_pos hrest, List.reverse_append, List.reverse_reverse]

theorem readTolerant_flatMap {vs : Variables} (h : vs.Storable) {rest : Bytes}
    (hrest : rest.headD 0 = 0) :
    readTolerant (vs.entries.flatMap Variable.encode ++ rest) = (vs, none) := by
  have hread := readFrom_encode vs.entries h 0 [] hrest
  rw [List.reverse_nil, List.nil_append, vs.of_entries] at hread
  exact hread

theorem readTolerant_single {v : Variable} (hv : v.Storable) :
    readTolerant v.encode = (.of [v], none) := by
  have hall : ∀ w ∈ [v], w.Storable := by
    intro w hw
    rw [List.mem_singleton.1 hw]
    exact hv
  have hread := readFrom_encode [v] hall 0 [] (rfl : ([] : Bytes).headD 0 = 0)
  rw [List.flatMap_cons, List.flatMap_nil, List.append_nil, List.append_nil] at hread
  exact hread

theorem readTolerant_of_head {region : Bytes} (h : region.headD 0 = 0) :
    readTolerant region = ({}, none) := by
  rw [readTolerant, readFrom, if_pos h]
  rfl

/-- A packed list reads back, whatever follows its end mark. -/
theorem readTolerant_encode {vs : Variables} (h : vs.Storable) (rest : Bytes) :
    readTolerant (encode vs ++ rest) = (vs, none) := by
  rw [encode, List.append_assoc]
  exact readTolerant_flatMap h rfl

theorem write_eq_ok {vs : Variables} {region after : Bytes} {n : Nat}
    (h : write vs region = .ok (n, after)) :
    ∃ rest, after = encode vs ++ rest ∧ after.length = region.length := by
  unfold write at h
  simp only at h
  split at h
  · cases h
  · cases h
    refine ⟨_, rfl, ?_⟩
    rw [List.length_append, List.length_drop]
    omega

theorem storable_of_readEntry {b : Bytes} {v : Variable} {rest : Bytes} (hb : b.headD 0 ≠ 0)
    (h : readEntry b = .ok (v, rest)) : v.Storable := by
  unfold readEntry at h
  split at h
  · cases h
  next name afterName hn =>
  split at h
  · cases h
  next value rest' hv =>
  split at h
  · next n w hn' hw =>
    cases h
    rw [Utf8.decode?_eq_some_iff] at hn' hw
    constructor
    · rw [hn']
      rintro rfl
      rw [splitZero?_eq hn] at hb
      exact hb rfl
    · rw [hn']
      exact zero_notMem_of_splitZero? hn
    · rw [hw]
      exact zero_notMem_of_splitZero? hv
  · cases h

theorem storable_readFrom (offset : Nat) (done : List Variable) (b : Bytes)
    (h : ∀ v ∈ done, v.Storable) : (readFrom offset done b).1.Storable := by
  fun_induction readFrom offset done b with
  | case1 => simpa [Variables.Storable] using h
  | case2 => simpa [Variables.Storable] using h
  | case3 offset done b hhead v rest hread ih =>
    apply ih
    intro w hw
    rcases List.mem_cons.1 hw with rfl | hw
    · exact storable_of_readEntry hhead hread
    · exact h w hw

theorem storable_readTolerant (region : Bytes) : (readTolerant region).1.Storable :=
  storable_readFrom 0 [] region (by simp)

/-- What reading takes from a region stands at its front, packed. Without a defect an end mark
follows, or nothing does; a defect is that of what follows. -/
theorem readFrom_eq (offset : Nat) (done : List Variable) (b : Bytes) :
    ∃ entries rest, (readFrom offset done b).1.entries = done.reverse ++ entries ∧
      b = entries.flatMap Variable.encode ++ rest ∧
      ((readFrom offset done b).2 = none → rest.headD 0 = 0) ∧
      ∀ defect, (readFrom offset done b).2 = some defect → rest.headD 0 ≠ 0 ∧
        readEntry rest = .error defect.cause ∧
        defect.offset = offset + Variable.totalSize entries := by
  fun_induction readFrom offset done b with
  | case1 offset done b hend =>
    exact ⟨[], b, (List.append_nil _).symm, rfl, fun _ => hend, nofun⟩
  | case2 offset done b hhead cause hread =>
    refine ⟨[], b, (List.append_nil _).symm, rfl, nofun, ?_⟩
    intro defect hdefect
    cases hdefect
    exact ⟨hhead, hread, rfl⟩
  | case3 offset done b hhead v rest hread ih =>
    obtain ⟨entries, tail, hentries, hrest, htail, hdamage⟩ := ih
    refine ⟨v :: entries, tail, ?_, ?_, htail, ?_⟩
    · rw [hentries, List.reverse_cons, List.append_assoc]
      rfl
    · rw [readEntry_eq hread, hrest, List.flatMap_cons, List.append_assoc]
    · intro defect hdefect
      obtain ⟨hmore, hcause, hoffset⟩ := hdamage defect hdefect
      refine ⟨hmore, hcause, ?_⟩
      rw [hoffset, Variables.totalSize_cons, Nat.add_assoc]

theorem readTolerant_eq (region : Bytes) :
    ∃ rest, region = (readTolerant region).1.entries.flatMap Variable.encode ++ rest ∧
      ((readTolerant region).2 = none → rest.headD 0 = 0) := by
  obtain ⟨entries, rest, hentries, hregion, hrest, -⟩ := readFrom_eq 0 [] region
  rw [readTolerant, hentries]
  exact ⟨rest, hregion, hrest⟩

/-- The region holds these variables, and behind them something that is no variable and does not
end the list. -/
structure Damaged (region : Bytes) (vs : Variables) : Prop where
  storable : vs.Storable
  damage : ∃ rest cause, region = vs.entries.flatMap Variable.encode ++ rest ∧
    rest.headD 0 ≠ 0 ∧ readEntry rest = .error cause

theorem damaged_of_readTolerant {region : Bytes} (h : (readTolerant region).2 ≠ none) :
    Damaged region (readTolerant region).1 := by
  obtain ⟨defect, hdefect⟩ := Option.ne_none_iff_exists'.1 h
  obtain ⟨entries, rest, hentries, hregion, -, hdamage⟩ := readFrom_eq 0 [] region
  obtain ⟨hmore, hcause, -⟩ := hdamage defect hdefect
  constructor
  · exact storable_readTolerant region
  · rw [readTolerant, hentries]
    exact ⟨rest, defect.cause, hregion, hmore, hcause⟩

theorem damaged_iff {region : Bytes} {vs : Variables} :
    Damaged region vs ↔ ∃ defect, readTolerant region = (vs, some defect) := by
  constructor
  · rintro ⟨hvs, rest, cause, rfl, hmore, hcause⟩
    refine ⟨⟨0 + Variable.totalSize vs.entries, cause⟩, ?_⟩
    rw [readTolerant, readFrom_append vs.entries hvs, readFrom, if_neg hmore]
    split
    next hread =>
      rw [hcause] at hread
      cases hread
      rw [List.append_nil, List.reverse_reverse, vs.of_entries]
    next hread =>
      rw [hcause] at hread
      cases hread
  · rintro ⟨defect, hread⟩
    have hdefect : (readTolerant region).2 ≠ none := by
      rw [hread]
      exact Option.some_ne_none defect
    have hdamaged := damaged_of_readTolerant hdefect
    rw [hread] at hdamaged
    exact hdamaged

/-- A region that has room for a list and its end mark holds this list and no other if and only if
it begins with them. -/
theorem readTolerant_eq_iff {vs : Variables} (h : vs.Storable) {region : Bytes}
    (hfits : (encode vs).length ≤ region.length) :
    readTolerant region = (vs, none) ↔ encode vs <+: region := by
  constructor
  · intro hread
    obtain ⟨rest, hregion, hrest⟩ := readTolerant_eq region
    simp only [hread] at hregion hrest
    cases rest with
    | nil =>
      rw [hregion, encode, List.length_append, List.append_nil, List.length_singleton] at hfits
      omega
    | cons x rest =>
      have hx : x = 0 := hrest trivial
      refine ⟨rest, ?_⟩
      rw [encode, List.append_assoc, hregion, hx]
      rfl
  · rintro ⟨rest, rfl⟩
    exact readTolerant_encode h rest

theorem packedSize_readTolerant_le (region : Bytes) :
    (readTolerant region).1.packedSize ≤ region.length := by
  obtain ⟨rest, hregion, -⟩ := readTolerant_eq region
  have hlen := congrArg List.length hregion
  rw [List.length_append, length_flatMap_encode] at hlen
  omega

end Region

namespace Variables

theorem storable_empty : ({} : Variables).Storable := by simp [Storable]

theorem packedSize_preserved_le (vs : Variables) : vs.preserved.packedSize ≤ vs.packedSize := by
  rw [vs.packedSize_eq]
  show Variable.totalSize (vs.entries.filter isPreserved) ≤ Variable.totalSize vs.entries
  induction vs.entries with
  | nil => exact Nat.le_refl _
  | cons v entries ih =>
    rw [List.filter_cons]
    split
    · exact Nat.add_le_add_left ih v.packedSize
    · exact Nat.le_trans ih (Nat.le_add_left _ _)

theorem Storable.preserved {vs : Variables} (h : vs.Storable) : vs.preserved.Storable := by
  intro v hv
  exact h v (List.mem_filter.1 hv).1

theorem Storable.erase {vs : Variables} (h : vs.Storable) (name : String) :
    (vs.erase name).Storable := by
  intro v hv
  exact h v (List.mem_of_mem_eraseP hv)

theorem storable_replaceFirst {name value : String} (hvalue : 0 ∉ Utf8.encode value)
    (l : List Variable) (h : ∀ v ∈ l, v.Storable) :
    ∀ v ∈ replaceFirst name value l, v.Storable := by
  induction l with
  | nil => exact h
  | cons v l ih =>
    have hv := h v List.mem_cons_self
    have hl := fun w hw => h w (List.mem_cons_of_mem v hw)
    intro w hw
    rw [replaceFirst] at hw
    split at hw
    · rcases List.mem_cons.1 hw with rfl | hw
      · exact ⟨hv.name_ne, hv.name_clean, hvalue⟩
      · exact hl w hw
    · rcases List.mem_cons.1 hw with rfl | hw
      · exact hv
      · exact ih hl w hw

theorem Storable.insert {vs : Variables} (h : vs.Storable) {name value : String}
    (hname : Utf8.encode name ≠ [] ∧ 0 ∉ Utf8.encode name) (hvalue : 0 ∉ Utf8.encode value) :
    (vs.insert name value).Storable := by
  unfold Variables.insert
  split
  · exact storable_replaceFirst hvalue vs.entries h
  · intro v hv
    rcases List.mem_append.1 hv with hv | hv
    · exact h v hv
    · rw [List.mem_singleton.1 hv]
      exact ⟨hname.1, hname.2, hvalue⟩

theorem remove_eq_ok {vs after : Variables} {name : String} (h : vs.remove name = .ok after) :
    vs.entries.any (·.name == name) = true ∧ after = vs.erase name := by
  simp only [remove, bind, Except.bind, pure, Except.pure] at h
  split at h
  · cases h
  split at h
  · cases h
  split at h
  next hany =>
    cases h
    exact ⟨hany, rfl⟩
  · cases h

theorem put_eq_ok {vs after : Variables} {name value : String} {limit : Nat}
    (h : vs.put name value limit = .ok after) :
    Variable.checkName name = .ok () ∧ Variable.checkValue value = .ok () ∧
      vs.packedSize - vs.takenBy name + (Variable.mk name value).packedSize ≤ limit ∧
      after = vs.insert name value := by
  simp only [put, bind, Except.bind, pure, Except.pure] at h
  split at h
  · cases h
  next hname =>
  split at h
  · cases h
  next hvalue =>
  split at h
  · cases h
  split at h
  · cases h
  next hroom =>
  cases h
  exact ⟨hname, hvalue, Nat.le_of_not_lt fun hlt => hroom (Or.inr hlt), rfl⟩

/-- What a list is once a variable was set: no value, or an empty one, took away the first entry of
the name, and any other is now the name's. -/
theorem set_cases {vs after : Variables} {name : String} {value : Option String} {limit : Nat}
    (hset : vs.set name value limit = .ok after) :
    (value.filter (!·.isEmpty) = none ∧ after = vs.erase name) ∨
    ∃ v, value.filter (!·.isEmpty) = some v ∧ Variable.checkName name = .ok () ∧
      Variable.checkValue v = .ok () ∧ after = vs.insert name v := by
  cases value with
  | none => exact Or.inl ⟨rfl, (remove_eq_ok hset).2⟩
  | some v =>
    rw [Variables.set] at hset
    split at hset
    · next hempty => exact Or.inl ⟨by simp [Option.filter, hempty], (remove_eq_ok hset).2⟩
    · next hvalue =>
      obtain ⟨hname, hprintable, -, hafter⟩ := put_eq_ok hset
      exact Or.inr ⟨v, by simp [Option.filter, hvalue], hname, hprintable, hafter⟩

theorem Storable.set {vs after : Variables} (h : vs.Storable) {name : String}
    {value : Option String} {limit : Nat} (hset : vs.set name value limit = .ok after) :
    after.Storable := by
  rcases set_cases hset with ⟨-, rfl⟩ | ⟨v, -, hname, hvalue, rfl⟩
  · exact h.erase name
  · exact h.insert (Variable.encode_name_of_checkName hname)
      (Variable.encode_value_of_checkValue hvalue)

end Variables

end BootStore

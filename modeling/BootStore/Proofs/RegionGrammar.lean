import BootStore.Proofs.RoundTrip

/-!
# The grammar of variable regions

An entry is a name that is not empty, a zero byte, a value and another zero byte, both texts UTF-8
and free of zero bytes. Reading gives the longest series of entries at the region's front
(`Region.beginsWith_iff`).
-/
namespace BootStore

/-- What keeps bytes that do not begin with a zero byte from being an entry, by the number of zero
bytes among them. -/
def EntryDefect.ofZeros : Nat → EntryDefect
  | 0 => .unterminatedName
  | 1 => .unterminatedValue
  | _ => .notUtf8

namespace Region

def BeginsWith (region : Bytes) (vs : Variables) : Prop :=
  vs.Storable ∧ vs.entries.flatMap Variable.encode <+: region

theorem count_of_splitZero?_none {b : Bytes} (h : splitZero? b = none) : b.count 0 = 0 := by
  unfold splitZero? at h
  split at h
  · next hall =>
    have hb := List.takeWhile_append_dropWhile (p := (· != 0)) (l := b)
    rw [hall, List.append_nil] at hb
    have hnonzero := List.all_eq_true.1 (List.all_takeWhile (p := (· != 0)) (l := b))
    rw [List.count_eq_zero]
    intro hmem
    rw [← hb] at hmem
    exact absurd (hnonzero 0 hmem) (by decide)
  · cases h

theorem count_of_splitZero? {b field rest : Bytes} (h : splitZero? b = some (field, rest)) :
    b.count 0 = rest.count 0 + 1 := by
  have hclean : field.count 0 = 0 := List.count_eq_zero.2 (zero_notMem_of_splitZero? h)
  rw [splitZero?_eq h, List.count_append, List.count_cons_self, hclean, Nat.zero_add]

theorem readEntry_error {b : Bytes} {cause : EntryDefect} (h : readEntry b = .error cause) :
    cause = .ofZeros (b.count 0) := by
  unfold readEntry at h
  split at h
  · next hname =>
    cases h
    rw [count_of_splitZero?_none hname]
    rfl
  next name afterName hname =>
  have hcount := count_of_splitZero? hname
  split at h
  · next hvalue =>
    cases h
    rw [hcount, count_of_splitZero?_none hvalue]
    rfl
  next value rest hvalue =>
  rw [count_of_splitZero? hvalue] at hcount
  split at h
  · cases h
  · cases h
    rw [hcount]
    rfl

theorem not_encode_prefix {b : Bytes} {cause : EntryDefect} (h : readEntry b = .error cause)
    {v : Variable} (hv : v.Storable) : ¬ v.encode <+: b := by
  rintro ⟨rest, rfl⟩
  rw [readEntry_encode hv] at h
  cases h

def unread (region : Bytes) : Bytes := region.drop (readTolerant region).1.packedSize

/-- Reading takes the entries at the front and leaves what is unread. It stops without a defect
where that is empty or an end mark, and otherwise at bytes that are no entry. -/
theorem readTolerant_unread (region : Bytes) :
    region = (readTolerant region).1.entries.flatMap Variable.encode ++ unread region ∧
      ((readTolerant region).2 = none → (unread region).headD 0 = 0) ∧
      ∀ defect, (readTolerant region).2 = some defect → (unread region).headD 0 ≠ 0 ∧
        readEntry (unread region) = .error defect.cause ∧
        defect.offset = (readTolerant region).1.packedSize := by
  obtain ⟨entries, rest, hentries, hregion, hend, hdamage⟩ := readFrom_eq 0 [] region
  have hvs : (readTolerant region).1 = .of entries := Variables.ext_entries hentries
  have hsize : (entries.flatMap Variable.encode).length = (Variables.of entries).packedSize :=
    length_flatMap_encode (.of entries)
  have hdrop : (entries.flatMap Variable.encode ++ rest).drop
      (entries.flatMap Variable.encode).length = rest := List.drop_left
  rw [← hregion, hsize] at hdrop
  have hunread : unread region = rest := by rw [unread, hvs, hdrop]
  rw [hunread, hvs]
  refine ⟨hregion, hend, ?_⟩
  intro defect hdefect
  obtain ⟨hmore, hcause, hoffset⟩ := hdamage defect hdefect
  exact ⟨hmore, hcause, hoffset.trans (Nat.zero_add _)⟩

theorem readTolerant_snd_eq_none_iff (region : Bytes) :
    (readTolerant region).2 = none ↔ (unread region).headD 0 = 0 := by
  obtain ⟨-, hend, hdamage⟩ := readTolerant_unread region
  refine ⟨hend, ?_⟩
  intro hzero
  cases hdefect : (readTolerant region).2 with
  | none => rfl
  | some defect => exact absurd hzero (hdamage defect hdefect).1

/-- A region begins with what reading takes from it, with the front parts of that, and with no other
entries. -/
theorem beginsWith_iff (region : Bytes) (ws : Variables) :
    BeginsWith region ws ↔ ws.entries <+: (readTolerant region).1.entries := by
  constructor
  · -- reading goes on behind these entries and may find more
    rintro ⟨hws, rest, rfl⟩
    obtain ⟨entries, -, hentries, -⟩ :=
      readFrom_eq (0 + Variable.totalSize ws.entries) (ws.entries.reverse ++ []) rest
    rw [readTolerant, readFrom_append ws.entries hws, hentries, List.append_nil,
      List.reverse_reverse]
    exact List.prefix_append _ _
  · intro hprefix
    obtain ⟨more, hmore⟩ := hprefix
    have hstorable := storable_readTolerant region
    refine ⟨fun v hv => hstorable v (hmore ▸ List.mem_append_left _ hv), ?_⟩
    have hregion := (readTolerant_unread region).1
    rw [← hmore, List.flatMap_append, List.append_assoc] at hregion
    exact ⟨_, hregion.symm⟩

theorem headD_drop_eq_zero_iff (region : Bytes) (n : Nat) :
    (region.drop n).headD 0 = 0 ↔ region.length ≤ n ∨ region[n]? = some 0 := by
  rw [List.headD_eq_head?_getD, List.head?_drop]
  by_cases hn : n < region.length
  · rw [List.getElem?_eq_getElem hn, Option.getD_some, Option.some.injEq]
    exact ⟨Or.inr, fun h => h.resolve_left (Nat.not_le_of_lt hn)⟩
  · rw [List.getElem?_eq_none (Nat.le_of_not_lt hn)]
    exact iff_of_true rfl (Or.inl (Nat.le_of_not_lt hn))

/-- Reading accepts exactly the grammar. The entries that it gives, packed, are the front of the
region. It meets no defect if and only if the region ends there or an end mark follows; the defect
otherwise is told at the offset where the entries end, no entry begins there, and the zero bytes
that are left say which defect it is. Every series of entries at the front of the region is a front
part of the one that is given, so that one is the longest. -/
theorem reading_follows_grammar (region : Bytes) :
    let vs := (readTolerant region).1
    let rest := region.drop vs.packedSize
    vs.entries.flatMap Variable.encode = region.take vs.packedSize ∧
    vs.packedSize ≤ region.length ∧ vs.Storable ∧
    ((readTolerant region).2 = none ↔
      vs.packedSize = region.length ∨ region[vs.packedSize]? = some 0) ∧
    (∀ defect, (readTolerant region).2 = some defect →
      read region = .error (.parse defect) ∧ defect.offset = vs.packedSize ∧
      (∀ v : Variable, v.Storable → ¬ v.encode <+: rest) ∧
      (rest.count 0 = 0 → defect.message = s!"unterminated name at offset {vs.packedSize}") ∧
      (rest.count 0 = 1 → defect.message = s!"unterminated value at offset {vs.packedSize}") ∧
      (2 ≤ rest.count 0 →
        defect.message = s!"entry at offset {vs.packedSize} is not valid UTF-8")) ∧
    ∀ ws, BeginsWith region ws ↔ ws.entries <+: vs.entries := by
  intro vs rest
  obtain ⟨hregion, -, hdamage⟩ := readTolerant_unread region
  have hsize : (vs.entries.flatMap Variable.encode).length = vs.packedSize :=
    length_flatMap_encode vs
  have hle : vs.packedSize ≤ region.length := packedSize_readTolerant_le region
  refine ⟨?_, hle, storable_readTolerant region, ?_, ?_, beginsWith_iff region⟩
  · have htake : (vs.entries.flatMap Variable.encode ++ unread region).take
        (vs.entries.flatMap Variable.encode).length = vs.entries.flatMap Variable.encode :=
      List.take_left
    rw [← hregion, hsize] at htake
    exact htake.symm
  · rw [readTolerant_snd_eq_none_iff, unread, headD_drop_eq_zero_iff]
    exact or_congr_left ⟨fun h => Nat.le_antisymm hle h, fun h => Nat.le_of_eq h.symm⟩
  · intro defect hdefect
    obtain ⟨-, hcause, hoffset⟩ := hdamage defect hdefect
    have hzeros : defect.cause = .ofZeros (rest.count 0) := readEntry_error hcause
    have hread : read region = .error (.parse defect) := by
      unfold read
      rw [show readTolerant region = (vs, some defect) from Prod.ext rfl hdefect]
    refine ⟨hread, hoffset, fun v hv => not_encode_prefix hcause hv, ?_, ?_, ?_⟩
    · intro hcount
      rw [RegionDefect.message, hzeros, hcount, hoffset]
      rfl
    · intro hcount
      rw [RegionDefect.message, hzeros, hcount, hoffset]
      rfl
    · intro hcount
      obtain ⟨more, hmore⟩ := Nat.exists_eq_add_of_le' hcount
      rw [RegionDefect.message, hzeros, hmore, hoffset]
      rfl

end Region

end BootStore

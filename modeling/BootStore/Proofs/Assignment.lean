import BootStore.Proofs.RoundTrip

/-!
# Assignments

What a list is once a name is given a value (`Variables.insert_eq_assigned`), and when the value is
accepted (`Variables.put_of_settable`).
-/
namespace BootStore

structure Variable.IsSettable (name : String) : Prop where
  isName : isName name = true
  length : name.utf8ByteSize ≤ maxNameLength

instance (name : String) : Decidable (Variable.IsSettable name) :=
  decidable_of_iff (Variable.isName name = true ∧ name.utf8ByteSize ≤ Variable.maxNameLength)
    ⟨fun h => ⟨h.1, h.2⟩, fun h => ⟨h.isName, h.length⟩⟩

theorem Variable.checkValue_eq_ok_iff (value : String) :
    checkValue value = .ok () ↔ value.toList.all isPrintable = true := by
  unfold checkValue
  rw [List.all_eq_true]
  cases hfound : value.toList.findIdx? (!isPrintable ·) with
  | none =>
    have hall := List.findIdx?_eq_none_iff.1 hfound
    exact iff_of_true rfl fun c hc => by simpa using hall c hc
  | some offset =>
    obtain ⟨hoffset, hfirst, -⟩ := List.findIdx?_eq_some_iff_getElem.1 hfound
    refine iff_of_false nofun fun hall => ?_
    have hprintable := hall _ (List.getElem_mem hoffset)
    simp [hprintable] at hfirst

namespace Variables

variable {vs : Variables} {name value : String} {front back entries : List Variable}

def names (vs : Variables) : List String := vs.entries.map (·.name)

theorem not_beq_of_notMem (h : name ∉ entries.map (·.name)) :
    ∀ v ∈ entries, ¬ (v.name == name) = true := by
  intro v hv heq
  exact h (List.mem_map.2 ⟨v, hv, beq_iff_eq.1 heq⟩)

theorem find?_of_notMem (h : name ∉ entries.map (·.name)) :
    entries.find? (·.name == name) = none :=
  List.find?_eq_none.2 (not_beq_of_notMem h)

theorem find?_first (h : name ∉ front.map (·.name)) (value : String) (back : List Variable) :
    (front ++ ⟨name, value⟩ :: back).find? (·.name == name) = some ⟨name, value⟩ := by
  rw [List.find?_append, find?_of_notMem h, Option.none_or]
  exact List.find?_cons_of_pos (beq_self_eq_true name)

theorem replaceFirst_first (h : name ∉ front.map (·.name)) (old value : String)
    (back : List Variable) :
    replaceFirst name value (front ++ ⟨name, old⟩ :: back) = front ++ ⟨name, value⟩ :: back := by
  induction front with
  | nil => exact if_pos (beq_self_eq_true name)
  | cons v front ih =>
    rw [List.map_cons, List.mem_cons, not_or] at h
    rw [List.cons_append, replaceFirst, if_neg (mt beq_iff_eq.1 (Ne.symm h.1)), ih h.2]
    rfl

theorem exists_first (h : name ∈ vs.names) : ∃ front old back,
    name ∉ front.map (·.name) ∧ vs.entries = front ++ ⟨name, old⟩ :: back := by
  obtain ⟨before, after, hnames, hfirst⟩ := List.eq_append_cons_of_mem h
  obtain ⟨front, rest, hentries, rfl, hrest⟩ := List.map_eq_append_iff.1 hnames
  obtain ⟨v, back, rfl, rfl, -⟩ := List.map_eq_cons_iff.1 hrest
  exact ⟨front, v.value, back, hfirst, hentries⟩

theorem any_iff : vs.entries.any (·.name == name) = true ↔ name ∈ vs.names := by
  simp [names]

section First

variable {old : String} (hfirst : name ∉ front.map (·.name))
  (hvs : vs.entries = front ++ ⟨name, old⟩ :: back)

include hvs

theorem mem_names_of_first : name ∈ vs.names := by
  rw [names, hvs, List.map_append]
  exact List.mem_append_right _ List.mem_cons_self

include hfirst

theorem insert_first (value : String) :
    vs.insert name value = .of (front ++ ⟨name, value⟩ :: back) := by
  apply ext_entries
  rw [entries_of, entries_insert, if_pos (any_iff.2 (mem_names_of_first hvs)), hvs,
    replaceFirst_first hfirst]

theorem erase_first : vs.erase name = .of (front ++ back) := by
  have hback : (Variable.mk name old :: back).eraseP (·.name == name) = back :=
    List.eraseP_cons_of_pos (beq_self_eq_true name)
  apply ext_entries
  rw [entries_of, entries_erase, hvs, List.eraseP_append_right _ (not_beq_of_notMem hfirst), hback]

end First

theorem insert_of_notMem (h : name ∉ vs.names) (value : String) :
    vs.insert name value = .of (vs.entries ++ [⟨name, value⟩]) :=
  ext_entries (if_neg (mt any_iff.1 h))

/-- A value takes the place of the first one of its name, or the end of the list. -/
theorem insert_cases (vs : Variables) (name value : String) :
    (name ∉ vs.names ∧ vs.insert name value = .of (vs.entries ++ [⟨name, value⟩])) ∨
    ∃ front old back, name ∉ front.map (·.name) ∧ vs.entries = front ++ ⟨name, old⟩ :: back ∧
      vs.insert name value = .of (front ++ ⟨name, value⟩ :: back) := by
  by_cases hname : name ∈ vs.names
  · obtain ⟨front, old, back, hfirst, hvs⟩ := exists_first hname
    exact Or.inr ⟨front, old, back, hfirst, hvs, insert_first hfirst hvs value⟩
  · exact Or.inl ⟨hname, insert_of_notMem hname value⟩

theorem get?_insert (vs : Variables) (name value : String) :
    (vs.insert name value).get? name = some value := by
  rcases vs.insert_cases name value with
    ⟨habsent, hinsert⟩ | ⟨front, old, back, hfirst, -, hinsert⟩
  · rw [hinsert, get?, entries_of, find?_first habsent]
    rfl
  · rw [hinsert, get?, entries_of, find?_first hfirst]
    rfl

theorem takenBy_of_notMem (h : name ∉ vs.names) : vs.takenBy name = 0 :=
  takenBy_of_not_any (Bool.eq_false_iff.2 (mt any_iff.1 h))

theorem packedSize_first {old : String} (hfirst : name ∉ front.map (·.name))
    (hvs : vs.entries = front ++ ⟨name, old⟩ :: back) :
    vs.packedSize =
      Variable.totalSize front + (vs.takenBy name + Variable.totalSize back) := by
  have htaken : vs.takenBy name = (Variable.mk name old).packedSize := by
    rw [takenBy, hvs, find?_first hfirst]
    rfl
  rw [htaken, ← totalSize_cons, ← totalSize_append, ← hvs, vs.packedSize_eq]

theorem value_lt_packedSize_insert (vs : Variables) (name value : String) :
    value.utf8ByteSize < (vs.insert name value).packedSize := by
  have hpacked : value.utf8ByteSize < (Variable.mk name value).packedSize := by
    simp only [Variable.packedSize]
    omega
  rw [packedSize_insert]
  omega

section Acceptance

variable {after : Variables} {limit : Nat}

theorem check_eq_ok_iff {α : Type} {check : Except StoreError Unit} {rest : Except StoreError α}
    {a : α} : (do check; rest) = .ok a ↔ check = .ok () ∧ rest = .ok a := by
  cases check with
  | error e => exact iff_of_false nofun nofun
  | ok => exact (and_iff_right rfl).symm

theorem ite_eq_ok_iff {α : Type} {p : Prop} [Decidable p] {a b : α} {e : StoreError} :
    (if p then .ok a else .error e) = Except.ok b ↔ p ∧ b = a := by
  by_cases hp : p
  · rw [if_pos hp, Except.ok.injEq, eq_comm]
    exact (and_iff_right hp).symm
  · rw [if_neg hp]
    exact iff_of_false nofun fun h => hp h.1

theorem checkName_eq_ok_iff :
    Variable.checkName name = .ok () ↔ Variable.isName name = true :=
  ite_eq_ok_iff.trans (and_iff_left rfl)

theorem checkLength_eq_ok_iff :
    checkLength name = .ok () ↔ name.utf8ByteSize ≤ Variable.maxNameLength := by
  unfold checkLength
  rw [← ite_not, ite_eq_ok_iff, Nat.not_lt]
  exact and_iff_left rfl

theorem isSettable_iff_checks : Variable.IsSettable name ↔
    Variable.checkName name = .ok () ∧ checkLength name = .ok () := by
  rw [checkName_eq_ok_iff, checkLength_eq_ok_iff]
  exact ⟨fun h => ⟨h.isName, h.length⟩, fun h => ⟨h.1, h.2⟩⟩

theorem remove_eq_ok_iff : vs.remove name = .ok after ↔
    (Variable.IsSettable name ∧ name ∈ vs.names) ∧ after = vs.erase name := by
  have hremove : vs.remove name = (do
      Variable.checkName name
      checkLength name
      if name ∈ vs.names then .ok (vs.erase name) else .error (.notFound name)) := by
    simp only [← any_iff]
    rfl
  rw [hremove, check_eq_ok_iff, check_eq_ok_iff, ite_eq_ok_iff, isSettable_iff_checks]
  simp only [and_assoc]

theorem put_eq_ok_iff : vs.put name value limit = .ok after ↔
    (Variable.IsSettable name ∧ value.toList.all Variable.isPrintable = true ∧
      (vs.insert name value).packedSize ≤ limit) ∧ after = vs.insert name value := by
  have hneeded := vs.value_lt_packedSize_insert name value
  -- a value that alone takes the limit makes a list that is over it
  have hfits : (vs.insert name value).packedSize ≤ limit ↔ ¬ (limit ≤ value.utf8ByteSize ∨
      limit < vs.packedSize - vs.takenBy name + (Variable.mk name value).packedSize) := by
    rw [← packedSize_insert]
    omega
  have hput : vs.put name value limit = (do
      Variable.checkName name
      Variable.checkValue value
      checkLength name
      let needed := (Variable.mk name value).packedSize
      if (vs.insert name value).packedSize ≤ limit then .ok (vs.insert name value)
      else .error (.sizeExceeded (.list name needed vs.packedSize limit))) := by
    simp only [hfits, ite_not]
    rfl
  rw [hput, check_eq_ok_iff, check_eq_ok_iff, check_eq_ok_iff, ite_eq_ok_iff,
    isSettable_iff_checks, ← Variable.checkValue_eq_ok_iff]
  constructor
  · rintro ⟨hname, hvalue, hlength, hfits, hafter⟩
    exact ⟨⟨⟨hname, hlength⟩, hvalue, hfits⟩, hafter⟩
  · rintro ⟨⟨⟨hname, hlength⟩, hvalue, hfits⟩, hafter⟩
    exact ⟨hname, hvalue, hlength, hfits, hafter⟩

end Acceptance

end Variables

end BootStore

import BootStore.Proofs.Ledger
import BootStore.Proofs.Spelling
import Mathlib.Data.Finmap

/-!
# Ordered maps

A value takes the place of the first one of its name or the end of the list, a deletion takes the
first entry of a name away, and nothing else moves. Without repeated names the list is the finite
map that the same changes make (`Ledger.ordered_map`).
-/
namespace BootStore

namespace Variables

variable {vs after : Variables} {name value : String} {limit : Nat}

/-- Two lists of entries, the second with a value for a name: in place of the first one of the name,
or at the end if there is none. -/
inductive Assigns (name value : String) : List Variable → List Variable → Prop where
  | replaced {front back : List Variable} {old : String} : name ∉ front.map (·.name) →
      Assigns name value (front ++ ⟨name, old⟩ :: back) (front ++ ⟨name, value⟩ :: back)
  | added {entries : List Variable} : name ∉ entries.map (·.name) →
      Assigns name value entries (entries ++ [⟨name, value⟩])

/-- Two lists of entries, the second without the first entry of a name. -/
inductive Deletes (name : String) : List Variable → List Variable → Prop where
  | deleted {front back : List Variable} {old : String} : name ∉ front.map (·.name) →
      Deletes name (front ++ ⟨name, old⟩ :: back) (front ++ back)

theorem assigns_iff {entries : List Variable} :
    Assigns name value vs.entries entries ↔ entries = (vs.insert name value).entries := by
  constructor
  · obtain ⟨before, rfl⟩ := vs.exists_of
    rintro (@⟨front, back, old, hfirst⟩ | @⟨_, habsent⟩)
    · exact congrArg Variables.entries (insert_first hfirst rfl value).symm
    · exact congrArg Variables.entries (insert_of_notMem habsent value).symm
  · rintro rfl
    rcases vs.insert_cases name value with
      ⟨habsent, hinsert⟩ | ⟨front, old, back, hfirst, hvs, hinsert⟩
    · rw [hinsert]
      exact .added habsent
    · rw [hinsert, hvs]
      exact .replaced hfirst

theorem deletes_erase (hname : name ∈ vs.names) :
    Deletes name vs.entries (vs.erase name).entries := by
  obtain ⟨front, old, back, hfirst, hvs⟩ := exists_first hname
  rw [erase_first hfirst hvs, hvs]
  exact .deleted hfirst

theorem names_insert (vs : Variables) (name value : String) :
    (vs.insert name value).names = if name ∈ vs.names then vs.names else vs.names ++ [name] := by
  rcases vs.insert_cases name value with
    ⟨habsent, hinsert⟩ | ⟨front, old, back, -, hvs, hinsert⟩
  · rw [hinsert, if_neg habsent, names, entries_of, List.map_append]
    rfl
  · rw [hinsert, if_pos (mem_names_of_first hvs), names, names, hvs, entries_of, List.map_append,
      List.map_append]
    rfl

theorem names_erase (vs : Variables) (name : String) :
    (vs.erase name).names = vs.names.erase name := by
  rw [List.erase_eq_eraseP', names, names, List.eraseP_map]
  rfl

theorem nodup_insert (hnames : vs.names.Nodup) (name value : String) :
    (vs.insert name value).names.Nodup := by
  rw [names_insert]
  by_cases hname : name ∈ vs.names
  · rwa [if_pos hname]
  · rw [if_neg hname, ← List.concat_eq_append, List.nodup_concat]
    exact ⟨hname, hnames⟩

theorem nodup_erase (hnames : vs.names.Nodup) (name : String) : (vs.erase name).names.Nodup := by
  rw [names_erase]
  exact hnames.erase name

theorem nodup_preserved (hnames : vs.names.Nodup) : vs.preserved.names.Nodup :=
  hnames.sublist (List.filter_sublist.map _)

theorem get?_append (front back : List Variable) (name : String) :
    get? (of (front ++ back)) name = (get? (of front) name).or (get? (of back) name) := by
  simp only [get?, entries_of, List.find?_append, Option.map_or]

theorem get?_cons (v : Variable) (entries : List Variable) (name : String) :
    get? (of (v :: entries)) name =
      if v.name = name then some v.value else get? (of entries) name := by
  by_cases hname : v.name = name
  · simp [get?, hname]
  · simp [get?, hname]

theorem get?_append_cons_of_ne {v : Variable} (hv : v.name ≠ name) (front back : List Variable) :
    get? (of (front ++ v :: back)) name = get? (of (front ++ back)) name := by
  rw [get?_append, get?_cons, if_neg hv, get?_append]

theorem get?_of_notMem (h : name ∉ vs.names) : vs.get? name = none := by
  rw [get?, find?_of_notMem h]
  rfl

theorem get?_insert_of_ne {other : String} (hne : name ≠ other) (vs : Variables) (value : String) :
    (vs.insert name value).get? other = vs.get? other := by
  obtain ⟨entries, rfl⟩ := vs.exists_of
  rcases insert_cases (of entries) name value with
    ⟨-, hinsert⟩ | ⟨front, old, back, -, rfl, hinsert⟩
  · rw [hinsert, get?_append_cons_of_ne hne, List.append_nil]
    rfl
  · rw [hinsert, get?_append_cons_of_ne hne, get?_append_cons_of_ne hne]

theorem get?_erase_of_ne {other : String} (hne : name ≠ other) (vs : Variables) :
    (vs.erase name).get? other = vs.get? other := by
  obtain ⟨entries, rfl⟩ := vs.exists_of
  by_cases hname : name ∈ names (of entries)
  · obtain ⟨front, old, back, hfirst, rfl⟩ := exists_first hname
    rw [erase_first hfirst rfl, get?_append_cons_of_ne hne]
  · rw [get?, entries_erase, List.eraseP_of_forall_not (not_beq_of_notMem hname)]
    rfl

theorem get?_erase (hnames : vs.names.Nodup) (name : String) :
    (vs.erase name).get? name = none := by
  apply get?_of_notMem
  rw [names_erase]
  exact hnames.not_mem_erase

theorem get?_preserved (vs : Variables) (name : String) : vs.preserved.get? name =
    if isPreserved ⟨name, ""⟩ then vs.get? name else none := by
  have hkept : ∀ v : Variable, v.name = name → isPreserved v = isPreserved ⟨name, ""⟩ := by
    rintro v rfl
    rfl
  unfold get? preserved
  rw [entries_of, List.find?_filter]
  by_cases hname : isPreserved ⟨name, ""⟩ = true
  · rw [if_pos hname]
    congr 2
    funext v
    by_cases hv : v.name = name
    · simp [hv, hkept v hv, hname]
    · simp [hv]
  · rw [if_neg hname, List.find?_eq_none.2]
    · rfl
    · intro v _ hv
      simp only [decide_eq_true_eq, beq_iff_eq] at hv
      exact hname (hkept v hv.2 ▸ hv.1)

end Variables

abbrev Catalog := Finmap fun _ : String => String

namespace Catalog

def packedSize (m : Catalog) : Nat := (m.entries.map fun e => (Variable.mk e.1 e.2).packedSize).sum

def preserved (m : Catalog) : Catalog where
  entries := m.entries.filter fun e => Variables.isPreserved ⟨e.1, e.2⟩
  nodupKeys := by
    refine Multiset.nodup_keys.1 (Multiset.nodup_of_le ?_ (Multiset.nodup_keys.2 m.nodupKeys))
    exact Multiset.map_le_map (Multiset.filter_le _ _)

def remove (m : Catalog) (name : String) : Option Catalog :=
  if Variable.IsSettable name ∧ name ∈ m then some (m.erase name) else none

def put (m : Catalog) (name value : String) (limit : Nat) : Option Catalog :=
  if Variable.IsSettable name ∧ Variable.IsPrintableText value ∧
      packedSize (m.insert name value) ≤ limit then
    some (m.insert name value)
  else none

/-- What a change makes of a map, if it is accepted. -/
def apply (m : Catalog) : Variables.Change → Option Catalog
  | .set name value limit =>
    match value.filter (!·.isEmpty) with
    | none => m.remove name
    | some v => m.put name v limit
  | .remove name => m.remove name
  | .preserve => some m.preserved

/-- What changes make of a map; those that are refused make nothing of it. -/
def run (m : Catalog) (changes : List Variables.Change) : Catalog :=
  changes.foldl (fun m change => (m.apply change).getD m) m

theorem lookup_preserved (m : Catalog) (name : String) : m.preserved.lookup name =
    if Variables.isPreserved ⟨name, ""⟩ then m.lookup name else none := by
  have hkept : ∀ value, Variables.isPreserved ⟨name, value⟩ = Variables.isPreserved ⟨name, ""⟩ :=
    fun value => rfl
  ext value
  simp only [Finmap.lookup_eq_some_iff, preserved, Multiset.mem_filter, hkept]
  by_cases hname : Variables.isPreserved ⟨name, ""⟩ = true
  · simp [hname, Finmap.lookup_eq_some_iff]
  · simp [hname]

end Catalog

namespace Variables

def catalog (vs : Variables) : Catalog :=
  (vs.entries.map fun v => (⟨v.name, v.value⟩ : Σ _ : String, String)).toFinmap

theorem catalog_cons (v : Variable) (entries : List Variable) :
    catalog (of (v :: entries)) = (catalog (of entries)).insert v.name v.value := by
  unfold catalog
  rw [entries_of, List.map_cons, Finmap.toFinmap_cons]
  rfl

theorem lookup_catalog (vs : Variables) (name : String) :
    vs.catalog.lookup name = vs.get? name := by
  obtain ⟨entries, rfl⟩ := vs.exists_of
  induction entries with
  | nil => rfl
  | cons v entries ih =>
    rw [catalog_cons, get?_cons]
    by_cases hname : v.name = name
    · subst hname
      rw [if_pos rfl, Finmap.lookup_insert]
    · rw [if_neg hname, Finmap.lookup_insert_of_ne _ (Ne.symm hname), ih]

theorem mem_catalog {vs : Variables} {name : String} : name ∈ vs.catalog ↔ name ∈ vs.names := by
  rw [catalog, Finmap.mem_list_toFinmap, names]
  simp

theorem packedSize_catalog {vs : Variables} (hnames : vs.names.Nodup) :
    vs.catalog.packedSize = vs.packedSize := by
  obtain ⟨entries, rfl⟩ := vs.exists_of
  induction entries with
  | nil => rfl
  | cons v entries ih =>
    obtain ⟨hfirst, hrest⟩ := List.nodup_cons.1 hnames
    have hnew : v.name ∉ catalog (of entries) := mt mem_catalog.1 hfirst
    rw [catalog_cons, Catalog.packedSize, Finmap.entries_insert_of_notMem hnew, Multiset.map_cons,
      Multiset.sum_cons]
    exact congrArg (v.packedSize + ·) (ih hrest)

theorem catalog_insert (vs : Variables) (name value : String) :
    (vs.insert name value).catalog = vs.catalog.insert name value := by
  refine Finmap.ext_lookup fun other => ?_
  rw [lookup_catalog]
  by_cases hother : name = other
  · subst hother
    rw [get?_insert, Finmap.lookup_insert]
  · rw [get?_insert_of_ne hother, Finmap.lookup_insert_of_ne _ (Ne.symm hother), lookup_catalog]

theorem catalog_erase {vs : Variables} (hnames : vs.names.Nodup) (name : String) :
    (vs.erase name).catalog = vs.catalog.erase name := by
  refine Finmap.ext_lookup fun other => ?_
  rw [lookup_catalog]
  by_cases hother : name = other
  · subst hother
    rw [get?_erase hnames, Finmap.lookup_erase]
  · rw [get?_erase_of_ne hother, Finmap.lookup_erase_ne (Ne.symm hother), lookup_catalog]

theorem catalog_preserved (vs : Variables) : vs.preserved.catalog = vs.catalog.preserved := by
  refine Finmap.ext_lookup fun name => ?_
  rw [lookup_catalog, get?_preserved, Catalog.lookup_preserved, lookup_catalog]

theorem toOption_eq_ite {result : Except StoreError Variables} {p : Prop} [Decidable p]
    {vs : Variables} (hresult : ∀ after, result = .ok after ↔ p ∧ after = vs) :
    result.toOption = if p then some vs else none := by
  by_cases hp : p
  · rw [if_pos hp, (hresult vs).2 ⟨hp, rfl⟩]
    rfl
  · rw [if_neg hp]
    cases hrefused : result with
    | error e => rfl
    | ok after => exact absurd ((hresult after).1 hrefused).1 hp

theorem catalog_remove {vs : Variables} (hnames : vs.names.Nodup) (name : String) :
    vs.catalog.remove name = (vs.remove name).toOption.map catalog := by
  rw [toOption_eq_ite fun after => remove_eq_ok_iff, apply_ite (Option.map catalog)]
  simp only [Catalog.remove, mem_catalog, ← catalog_erase hnames]
  rfl

theorem catalog_put {vs : Variables} (hnames : vs.names.Nodup) (name value : String) (limit : Nat) :
    vs.catalog.put name value limit = (vs.put name value limit).toOption.map catalog := by
  rw [toOption_eq_ite fun after => put_eq_ok_iff, apply_ite (Option.map catalog)]
  simp only [Catalog.put, ← catalog_insert, packedSize_catalog (nodup_insert hnames name value),
    Variable.isPrintableText_iff]
  rfl

/-- A change does the same to a list in which no name is repeated as to its map. -/
theorem catalog_apply {vs : Variables} (hnames : vs.names.Nodup) (change : Change) :
    vs.catalog.apply change = (vs.apply change).toOption.map catalog := by
  cases change with
  | set name value limit =>
    rw [Catalog.apply, apply]
    cases hvalue : value.filter (!·.isEmpty) with
    | none =>
      rw [set_of_filter_none hvalue]
      exact catalog_remove hnames name
    | some v =>
      rw [set_of_filter_some hvalue]
      exact catalog_put hnames name v limit
  | remove name => exact catalog_remove hnames name
  | preserve => exact congrArg some (catalog_preserved vs).symm

theorem nodup_apply {vs after : Variables} (hnames : vs.names.Nodup) {change : Change}
    (happly : vs.apply change = .ok after) : after.names.Nodup := by
  cases change with
  | set name value limit =>
    rcases set_cases happly with ⟨-, rfl⟩ | ⟨v, -, -, -, rfl⟩
    · exact nodup_erase hnames name
    · exact nodup_insert hnames name v
  | remove name =>
    rw [(remove_eq_ok happly).2]
    exact nodup_erase hnames name
  | preserve =>
    obtain rfl := Except.ok.inj happly
    exact nodup_preserved hnames

/-- Changes that are to take an entry of a name away. -/
def Change.IsDeletion (name : String) : Change → Prop
  | .set other value _ => other = name ∧ value.getD "" = ""
  | .remove other => other = name
  | .preserve => False

theorem apply_of_isDeletion {name : String} {change : Change} (hchange : change.IsDeletion name)
    (vs : Variables) : vs.apply change = vs.remove name := by
  cases change with
  | set other value limit =>
    obtain ⟨rfl, hvalue⟩ := hchange
    refine set_of_filter_none ?_ vs other limit
    cases value with
    | none => rfl
    | some v =>
      obtain rfl : v = "" := hvalue
      rfl
  | remove other => exact congrArg vs.remove hchange
  | preserve => exact hchange.elim

theorem set_of_ne_empty {value : String} (hvalue : value ≠ "") (vs : Variables) (name : String)
    (limit : Nat) : vs.set name (some value) limit = vs.put name value limit :=
  if_neg (mt String.isEmpty_iff.1 hvalue)

end Variables

namespace Ledger

def run (k : Ledger) (changes : List Variables.Change) : Ledger :=
  changes.foldl (fun k change => (k.apply change).2) k

def names (k : Ledger) : List String := k.entries.map (·.name)

theorem apply_cases (vs : Variables) (change : Variables.Change) :
    (∃ e, vs.apply change = .error e ∧ (of vs).apply change = (.error e, of vs)) ∨
    ∃ after, vs.apply change = .ok after ∧ (of vs).apply change = (.ok (), of after) := by
  rw [apply_of]
  cases vs.apply change with
  | error e => exact Or.inl ⟨e, rfl, rfl⟩
  | ok after => exact Or.inr ⟨after, rfl, rfl⟩

theorem apply_eq_ok_iff (vs : Variables) (change : Variables.Change) :
    ((of vs).apply change).1 = .ok () ↔ ∃ after, vs.apply change = .ok after := by
  rcases apply_cases vs change with ⟨e, hchange, hkept⟩ | ⟨after, hchange, hkept⟩
  · rw [hchange, hkept]
    exact iff_of_false nofun nofun
  · rw [hchange, hkept]
    exact iff_of_true rfl ⟨after, rfl⟩

theorem eq_of_apply_ok {vs : Variables} {change : Variables.Change} {k : Ledger}
    (h : (of vs).apply change = (.ok (), k)) :
    ∃ after, vs.apply change = .ok after ∧ k = of after := by
  rcases apply_cases vs change with ⟨e, hchange, hkept⟩ | ⟨after, hchange, hkept⟩
  · cases hkept.symm.trans h
  · cases hkept.symm.trans h
    exact ⟨after, hchange, rfl⟩

section Nodup

variable {vs : Variables} (hnames : vs.names.Nodup)

include hnames

theorem accepted_iff (change : Variables.Change) :
    ((of vs).apply change).1 = .ok () ↔ (vs.catalog.apply change).isSome := by
  rw [apply_eq_ok_iff, Variables.catalog_apply hnames, Option.isSome_map]
  cases vs.apply change with
  | error e => exact iff_of_false nofun nofun
  | ok after => exact iff_of_true ⟨after, rfl⟩ rfl

theorem step_catalog (change : Variables.Change) :
    ∃ after, ((of vs).apply change).2 = of after ∧ after.names.Nodup ∧
      after.catalog = (vs.catalog.apply change).getD vs.catalog := by
  rw [Variables.catalog_apply hnames]
  rcases apply_cases vs change with ⟨e, hchange, hkept⟩ | ⟨after, hchange, hkept⟩
  · rw [hchange, hkept]
    exact ⟨vs, rfl, hnames, rfl⟩
  · rw [hchange, hkept]
    exact ⟨after, rfl, Variables.nodup_apply hnames hchange, rfl⟩

/-- By induction on the changes: no name comes to be repeated, and the map of the list is what the
changes make of the map that it was. -/
theorem run_catalog (changes : List Variables.Change) :
    ∃ after, (of vs).run changes = of after ∧ after.names.Nodup ∧
      after.catalog = vs.catalog.run changes := by
  induction changes generalizing vs with
  | nil => exact ⟨vs, rfl, hnames, rfl⟩
  | cons change changes ih =>
    obtain ⟨next, hnext, hnodup, hcatalog⟩ := step_catalog hnames change
    obtain ⟨after, hafter, hlast, hrun⟩ := ih hnodup
    refine ⟨after, ?_, hlast, ?_⟩
    · rw [← hafter, ← hnext]
      rfl
    · rw [hrun, hcatalog]
      rfl

end Nodup

/-- A ledger that was read from a region and changed is an ordered map, whatever it was read from.
Its size is what its entries take, and what a change does in place is what the list makes of it as a
whole. A value that is not empty is accepted if and only if the name has the form of a name and is
shorter than a block, the value is printable and the entries with the value take at most the limit.
It is then what is read of the name, and stands in place of the first value of the name, or in a new
entry at the end, with every other entry where it was. A deletion is accepted if and only if the
name could be set and is there, and takes its first entry away. A change that is refused leaves
entries and size as they were. Names that are distinct stay distinct, and whatever changes are made,
what is read and what is accepted is then as in the finite map to which the same changes are made.
-/
theorem ordered_map {k : Ledger} (h : k.Obtained) :
    (k.size = Variable.totalSize k.entries ∧
      (∀ name, k.takenAt (k.position? name) ≤ k.size) ∧
      ∀ change, k.apply change = k.keep ((Variables.of k.entries).apply change)) ∧
    (∀ name value limit, value ≠ "" →
      ((k.apply (.set name (some value) limit)).1 = .ok () ↔
        name.toList ∈ Variable.namePattern.matches' ∧ name.utf8ByteSize < 512 ∧
        Variable.IsPrintableText value ∧
        ∃ entries, Variables.Assigns name value k.entries entries ∧
          Variable.totalSize entries ≤ limit) ∧
      ∀ after, k.apply (.set name (some value) limit) = (.ok (), after) →
        after.get? name = some value ∧ Variables.Assigns name value k.entries after.entries) ∧
    (∀ name change, change.IsDeletion name →
      ((k.apply change).1 = .ok () ↔
        name.toList ∈ Variable.namePattern.matches' ∧ name.utf8ByteSize < 512 ∧ name ∈ k.names) ∧
      ∀ after, k.apply change = (.ok (), after) →
        Variables.Deletes name k.entries after.entries) ∧
    (∀ change e after, k.apply change = (.error e, after) → after = k) ∧
    (k.names.Nodup → ∀ m : Catalog, (∀ name, m.lookup name = k.get? name) → ∀ changes,
      (k.run changes).names.Nodup ∧
      (∀ name, (k.run changes).get? name = (m.run changes).lookup name) ∧
      ∀ change, ((k.run changes).apply change).1 = .ok () ↔
        ((m.run changes).apply change).isSome) := by
  obtain ⟨vs, rfl, -⟩ := h.exists_list
  have hof : Variables.of (of vs).entries = vs := vs.of_entries
  rw [hof]
  refine ⟨⟨vs.packedSize_eq, takenAt_position_le vs, apply_of vs⟩, ?_, ?_, ?_, ?_⟩
  · intro name value limit hvalue
    have hset : vs.apply (.set name (some value) limit) = vs.put name value limit :=
      Variables.set_of_ne_empty hvalue vs name limit
    constructor
    · rw [apply_eq_ok_iff, hset]
      simp only [Variables.put_eq_ok_iff, Variable.isSettable_iff, Variable.isPrintableText_iff,
        Variables.assigns_iff, of, exists_and_left, exists_eq, exists_eq_left, and_true, and_assoc,
        (vs.insert name value).packedSize_eq]
      rfl
    · intro after hafter
      obtain ⟨list, hlist, rfl⟩ := eq_of_apply_ok hafter
      obtain ⟨-, rfl⟩ := Variables.put_eq_ok_iff.1 (hset.symm.trans hlist)
      exact ⟨vs.get?_insert name value, Variables.assigns_iff.2 rfl⟩
  · intro name change hchange
    have hremove := Variables.apply_of_isDeletion hchange vs
    constructor
    · rw [apply_eq_ok_iff, hremove]
      simp only [Variables.remove_eq_ok_iff, Variable.isSettable_iff, exists_and_left, exists_eq,
        and_true, and_assoc]
      rfl
    · intro after hafter
      obtain ⟨list, hlist, rfl⟩ := eq_of_apply_ok hafter
      obtain ⟨⟨-, hname⟩, rfl⟩ := Variables.remove_eq_ok_iff.1 (hremove.symm.trans hlist)
      exact Variables.deletes_erase hname
  · intro change e after hafter
    rcases apply_cases vs change with ⟨_, -, hkept⟩ | ⟨_, -, hkept⟩
    · cases hkept.symm.trans hafter
      rfl
    · cases hkept.symm.trans hafter
  · intro hnames m hm changes
    have hmap : m = vs.catalog :=
      Finmap.ext_lookup fun name => (hm name).trans (vs.lookup_catalog name).symm
    obtain ⟨after, hafter, hnodup, hcatalog⟩ := run_catalog hnames changes
    rw [hafter, hmap, ← hcatalog]
    exact ⟨hnodup, fun name => (after.lookup_catalog name).symm, accepted_iff hnodup⟩

/-- Two variables of one name, the first of them empty, and another between them were read. A value
that takes the list to its limit goes where the empty one was, a limit that is a byte less leaves
the ledger as it is, and a deletion bares the second of the name. -/
theorem ordered_map_duplicates :
    let vs : Variables := .of [⟨"B", ""⟩, ⟨"A", "1"⟩, ⟨"B", "2"⟩]
    let k := Ledger.of vs
    k.Obtained ∧
    (∃ after, k.apply (.set "B" (some "x") 12) = (.ok (), after) ∧ after.get? "B" = some "x" ∧
      Variables.Assigns "B" "x" k.entries after.entries) ∧
    (k.apply (.set "B" (some "x") 11)).2 = k ∧
    ∃ after, k.apply (.set "B" (some "") 0) = (.ok (), after) ∧
      Variables.Deletes "B" k.entries after.entries ∧ after.get? "B" = some "2" := by
  intro vs k
  have hstorable : vs.Storable := by decide +kernel
  have hobtained : k.Obtained := by
    have hread := Obtained.read (vs.entries.flatMap Variable.encode ++ [])
    rwa [read, Region.readTolerant_flatMap hstorable rfl, ofEntries_eq] at hread
  obtain ⟨-, hset, hdelete, hrefused, -⟩ := ordered_map hobtained
  have hform : "B".toList ∈ Variable.namePattern.matches' := (Variable.isName_iff "B").1 rfl
  refine ⟨hobtained, ?_, ?_, ?_⟩
  · obtain ⟨haccepted, hafter⟩ := hset "B" "x" 12 (by decide)
    have hassigns : Variables.Assigns "B" "x" k.entries (vs.insert "B" "x").entries :=
      Variables.assigns_iff.2 rfl
    have hok := haccepted.2 ⟨hform, by decide, by decide, _, hassigns, by decide⟩
    exact ⟨_, Prod.ext hok rfl, hafter _ (Prod.ext hok rfl)⟩
  · have hfull : ∃ e, (k.apply (.set "B" (some "x") 11)).1 = .error e := ⟨_, rfl⟩
    obtain ⟨e, he⟩ := hfull
    exact hrefused _ e _ (Prod.ext he rfl)
  · obtain ⟨-, hafter⟩ := hdelete "B" (.set "B" (some "") 0) ⟨rfl, rfl⟩
    exact ⟨_, rfl, hafter _ rfl, rfl⟩

end Ledger

end BootStore

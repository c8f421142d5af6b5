import BootStore.Proofs.Packing

/-!
# Ledgers

A list of variables as it is changed in place, step by step, with a running size beside the entries.
A change does what it makes of the list as a whole, and one that fails leaves the ledger as it was
(`Ledger.apply_of`).
-/
namespace BootStore

namespace Variables

inductive Change where
  | set (name : String) (value : Option String) (limit : Nat)
  | remove (name : String)
  /-- To go on with the variables that outlive an initialization. -/
  | preserve
  deriving DecidableEq, Repr

def apply (vs : Variables) : Change → Except StoreError Variables
  | .set name value limit => vs.set name value limit
  | .remove name => vs.remove name
  | .preserve => .ok vs.preserved

theorem set_of_filter_none {value : Option String} (hvalue : value.filter (!·.isEmpty) = none)
    (vs : Variables) (name : String) (limit : Nat) :
    vs.set name value limit = vs.remove name := by
  cases value with
  | none => rfl
  | some v =>
    have hempty : v.isEmpty = true := by simpa using Option.filter_eq_none_iff.1 hvalue v rfl
    exact if_pos hempty

theorem set_of_filter_some {value : Option String} {v : String}
    (hvalue : value.filter (!·.isEmpty) = some v) (vs : Variables) (name : String) (limit : Nat) :
    vs.set name value limit = vs.put name v limit := by
  obtain ⟨rfl, hv⟩ := Option.filter_eq_some_iff.1 hvalue
  have hnonempty : ¬ v.isEmpty = true := by simpa using hv
  exact if_neg hnonempty

end Variables

structure Ledger where
  entries : List Variable := []
  /-- What the entries take when they are packed, as it is kept. -/
  size : Nat := 0
  deriving DecidableEq, Repr

namespace Ledger

/-- Steps on a ledger. A failure ends them and does not undo them. -/
abbrev Steps (α : Type) := ExceptT StoreError (StateM Ledger) α

def push (k : Ledger) (v : Variable) : Ledger := ⟨k.entries ++ [v], k.size + v.packedSize⟩

def ofEntries (entries : List Variable) : Ledger := entries.foldl push {}

def read (region : Bytes) : Ledger := ofEntries (Region.readTolerant region).1.entries

def preserved (k : Ledger) : Ledger := ofEntries (k.entries.filter Variables.isPreserved)

def get? (k : Ledger) (name : String) : Option String :=
  (k.entries.find? (·.name == name)).map (·.value)

def position? (k : Ledger) (name : String) : Option Nat := k.entries.findIdx? (·.name == name)

def takenAt (k : Ledger) (position : Option Nat) : Nat :=
  (position.bind (k.entries[·]?)).elim 0 Variable.packedSize

def removeAt (i : Nat) : Steps Unit := do
  let released := (← get).takenAt (some i)
  modify fun k => { k with entries := k.entries.eraseIdx i }
  modify fun k => { k with size := k.size - released }

def putAt (position : Option Nat) (name value : String) : Steps Unit := do
  let released := (← get).takenAt position
  modify fun k =>
    match position with
    | some i => { k with entries := k.entries.modify i ({ · with value }) }
    | none => { k with entries := k.entries ++ [⟨name, value⟩] }
  modify fun k => { k with size := k.size - released + (Variable.mk name value).packedSize }

def deleteFirst (name : String) : Steps Unit := do
  match (← get).position? name with
  | none => throw (.notFound name)
  | some i => removeAt i

def store (name value : String) (limit : Nat) : Steps Unit := do
  let k ← get
  let position := k.position? name
  let needed := (Variable.mk name value).packedSize
  if limit ≤ value.utf8ByteSize ∨ limit < k.size - k.takenAt position + needed then
    throw (.sizeExceeded (.list name needed k.size limit))
  else putAt position name value

def set (name : String) (value : Option String) (limit : Nat) : Steps Unit := do
  ofExcept (Variable.checkName name)
  match value.filter (!·.isEmpty) with
  | none =>
    ofExcept (Variables.checkLength name)
    deleteFirst name
  | some v =>
    ofExcept (Variable.checkValue v)
    ofExcept (Variables.checkLength name)
    store name v limit

def apply (k : Ledger) : Variables.Change → Except StoreError Unit × Ledger
  | .set name value limit => (Ledger.set name value limit).run k
  | .remove name => (Ledger.set name none (UInt64.size - 1)).run k
  | .preserve => (.ok (), k.preserved)

/-- The ledgers that changes lead to from one that was read, whatever they answer. -/
inductive Obtained : Ledger → Prop where
  | read (region : Bytes) : Obtained (read region)
  | change {k : Ledger} (change : Variables.Change) : Obtained k → Obtained (k.apply change).2

def of (vs : Variables) : Ledger := ⟨vs.entries, vs.packedSize⟩

/-- Keeps the list that a change gives, or the ledger as it was. -/
def keep (k : Ledger) : Except StoreError Variables → Except StoreError Unit × Ledger
  | .error e => (.error e, k)
  | .ok after => (.ok (), .of after)

theorem foldl_push (entries : List Variable) (k : Ledger) :
    entries.foldl push k = ⟨k.entries ++ entries, k.size + Variable.totalSize entries⟩ := by
  induction entries generalizing k with
  | nil => rw [List.append_nil]; rfl
  | cons v entries ih =>
    rw [List.foldl_cons, ih, push, Variables.totalSize_cons]
    simp only [List.append_assoc, List.singleton_append, Nat.add_assoc]

theorem ofEntries_eq (entries : List Variable) : ofEntries entries = .of (.of entries) := by
  rw [ofEntries, foldl_push]
  simp only [List.nil_append, Nat.zero_add]
  rfl

section Run

variable (k : Ledger) (x y : Steps Unit)

theorem run_get (f : Ledger → Steps Unit) : (get >>= f).run k = (f k).run k := rfl

theorem run_throw (e : StoreError) : (throw e : Steps Unit).run k = (.error e, k) := rfl

theorem run_ite (p : Prop) [Decidable p] :
    (if p then x else y).run k = if p then x.run k else y.run k := by
  split
  · rfl
  · rfl

theorem run_check {x : Steps Unit} {k : Ledger} {result : Except StoreError Variables}
    (hx : x.run k = k.keep result) (check : Except StoreError Unit) :
    (do ofExcept check; x : Steps Unit).run k = k.keep (do check; result) := by
  cases check with
  | error e => rfl
  | ok => exact hx

end Run

section InPlace

variable {vs : Variables} {name : String}

theorem position_cases (vs : Variables) (name : String) :
    (name ∉ vs.names ∧ (of vs).position? name = none) ∨
    ∃ front old back, name ∉ front.map (·.name) ∧ vs.entries = front ++ ⟨name, old⟩ :: back ∧
      (of vs).position? name = some front.length := by
  unfold position? of
  by_cases hname : name ∈ vs.names
  · obtain ⟨front, old, back, hfirst, hvs⟩ := Variables.exists_first hname
    refine Or.inr ⟨front, old, back, hfirst, hvs, ?_⟩
    rw [hvs, List.findIdx?_append, List.findIdx?_eq_none_iff.2, List.findIdx?_cons]
    · simp
    · intro v hv
      simpa using Variables.not_beq_of_notMem hfirst v hv
  · refine Or.inl ⟨hname, List.findIdx?_eq_none_iff.2 ?_⟩
    intro v hv
    simpa using Variables.not_beq_of_notMem hname v hv

theorem run_removeAt (k : Ledger) (i : Nat) : (removeAt i).run k =
    (.ok (), ⟨k.entries.eraseIdx i, k.size - k.takenAt (some i)⟩) := rfl

theorem run_putAt (k : Ledger) (position : Option Nat) (name value : String) :
    (putAt position name value).run k = (.ok (),
      ⟨position.elim (k.entries ++ [⟨name, value⟩]) fun i => k.entries.modify i ({ · with value }),
        k.size - k.takenAt position + (Variable.mk name value).packedSize⟩) := by
  cases position with
  | none => rfl
  | some i => rfl

theorem takenAt_position (vs : Variables) (name : String) :
    (of vs).takenAt ((of vs).position? name) = vs.takenBy name := by
  rcases position_cases vs name with ⟨habsent, hfound⟩ | ⟨front, old, back, hfirst, hvs, hfound⟩
  · rw [hfound, Variables.takenBy_of_notMem habsent]
    rfl
  · have hentry : (front ++ ⟨name, old⟩ :: back)[front.length]? = some ⟨name, old⟩ := by simp
    rw [hfound, takenAt, Variables.takenBy, of, hvs, Variables.find?_first hfirst,
      Option.bind_some, hentry]
    rfl

/-- An entry never takes more than there is, so that nothing is lost when it is given back. -/
theorem takenAt_position_le (vs : Variables) (name : String) :
    (of vs).takenAt ((of vs).position? name) ≤ (of vs).size := by
  rw [takenAt_position]
  by_cases hname : name ∈ vs.names
  · obtain ⟨front, old, back, hfirst, hvs⟩ := Variables.exists_first hname
    have hsize := Variables.packedSize_first hfirst hvs
    show vs.takenBy name ≤ vs.packedSize
    omega
  · rw [Variables.takenBy_of_notMem hname]
    exact Nat.zero_le _

theorem run_deleteFirst (vs : Variables) (name : String) : (deleteFirst name).run (of vs) =
    (of vs).keep (if vs.entries.any (·.name == name) then .ok (vs.erase name)
      else .error (.notFound name)) := by
  show ExceptT.run (match (of vs).position? name with
    | none => throw (.notFound name)
    | some i => removeAt i) (of vs) = _
  have htaken := takenAt_position vs name
  rcases position_cases vs name with ⟨habsent, hfound⟩ | ⟨front, old, back, hfirst, hvs, hfound⟩
  · rw [hfound, if_neg (mt Variables.any_iff.1 habsent)]
    rfl
  · have hrest : vs.entries.eraseIdx front.length = front ++ back := by
      rw [hvs, List.eraseIdx_append_of_length_le (Nat.le_refl _), Nat.sub_self]
      rfl
    rw [hfound] at htaken
    rw [hfound, if_pos (Variables.any_iff.2 (Variables.mem_names_of_first hvs))]
    show (removeAt front.length).run (of vs) = (.ok (), of (vs.erase name))
    rw [run_removeAt, htaken, of, of, Variables.packedSize_erase, Variables.erase_first hfirst hvs]
    simp only [hrest, Variables.entries_of]

theorem run_putAt_position (vs : Variables) (name value : String) :
    (putAt ((of vs).position? name) name value).run (of vs) =
      (.ok (), of (vs.insert name value)) := by
  rw [run_putAt, takenAt_position, of, of, Variables.packedSize_insert]
  rcases position_cases vs name with ⟨habsent, hfound⟩ | ⟨front, old, back, hfirst, hvs, hfound⟩
  · rw [← of, hfound, Variables.insert_of_notMem habsent]
    rfl
  · have hchanged : vs.entries.modify front.length ({ · with value }) =
        front ++ ⟨name, value⟩ :: back := by
      rw [hvs, List.modify_eq_take_drop, List.take_left, List.drop_left]
      rfl
    rw [← of, hfound, Variables.insert_first hfirst hvs]
    simp only [Option.elim_some, of, hchanged, Variables.entries_of]

theorem run_store (vs : Variables) (name value : String) (limit : Nat) :
    (store name value limit).run (of vs) = (of vs).keep
      (if limit ≤ value.utf8ByteSize ∨
          limit < vs.packedSize - vs.takenBy name + (Variable.mk name value).packedSize then
        .error (.sizeExceeded (.list name (Variable.mk name value).packedSize vs.packedSize limit))
      else .ok (vs.insert name value)) := by
  simp only [store, run_get, run_ite, run_throw, takenAt_position, run_putAt_position]
  rw [apply_ite (of vs).keep]
  rfl

theorem run_set (vs : Variables) (name : String) (value : Option String) (limit : Nat) :
    (set name value limit).run (of vs) = (of vs).keep (vs.set name value limit) := by
  unfold set
  cases hvalue : value.filter (!·.isEmpty) with
  | none =>
    rw [Variables.set_of_filter_none hvalue]
    exact run_check (run_check (run_deleteFirst vs name) _) _
  | some v =>
    rw [Variables.set_of_filter_some hvalue]
    exact run_check (run_check (run_check (run_store vs name v limit) _) _) _

end InPlace

/-- What a change does to a ledger is what it makes of the list as a whole. -/
theorem apply_of (vs : Variables) (change : Variables.Change) :
    (of vs).apply change = (of vs).keep (vs.apply change) := by
  cases change with
  | set name value limit => exact run_set vs name value limit
  | remove name => exact run_set vs name none _
  | preserve => exact congrArg (Prod.mk _) (ofEntries_eq _)

theorem obtained_apply {vs : Variables} (hvs : vs.Obtained vs.packedSize)
    (change : Variables.Change) :
    ∃ after : Variables, ((of vs).apply change).2 = of after ∧ after.Obtained after.packedSize := by
  rw [apply_of]
  cases hafter : vs.apply change with
  | error e => exact ⟨vs, rfl, hvs⟩
  | ok after =>
    refine ⟨after, rfl, ?_⟩
    cases change with
    | set name value limit =>
      rw [← Variables.resize_eq hafter]
      exact hvs.set hafter
    | remove name =>
      have hset : vs.set name none 0 = .ok after := hafter
      rw [← Variables.resize_eq hset]
      exact hvs.remove hafter
    | preserve =>
      obtain rfl := Except.ok.inj hafter
      rw [← Variables.runningSize_eq]
      exact hvs.preserved

/-- Ledgers hold the lists that are obtained, and their sizes are never off. -/
theorem Obtained.exists_list {k : Ledger} (h : k.Obtained) :
    ∃ vs : Variables, k = of vs ∧ vs.Obtained vs.packedSize := by
  induction h with
  | read region =>
    have hread := Variables.Obtained.read region
    rw [Variables.runningSize_eq] at hread
    refine ⟨_, ?_, hread⟩
    rw [Ledger.read, ofEntries_eq, Variables.of_entries]
  | change change _ ih =>
    obtain ⟨vs, rfl, hvs⟩ := ih
    exact obtained_apply hvs change

end Ledger

end BootStore

import BootStore.Variable

/-!
# Variable lists

The ordered list of a store's variables, with a count of what they take. A name's first entry is the
one that is read, replaced and deleted; new names go to the end. What the list may take in all is
bounded when a variable is set.
-/
namespace BootStore

/-- Bytes that variables take when packed, without the end mark. -/
def Variable.totalSize (entries : List Variable) : Nat :=
  entries.foldr (fun v n => v.packedSize + n) 0

/-- Variables in stored order. A list read from a device may hold a name more than once. The count
of what they take is kept as the list changes, and is what decides about room. -/
structure Variables where
  entries : List Variable := []
  packedSize : Nat := 0
  packedSize_eq : packedSize = Variable.totalSize entries := by rfl
  deriving DecidableEq, Repr

namespace Variables

def of (entries : List Variable) : Variables := ⟨entries, Variable.totalSize entries, rfl⟩

@[simp] theorem entries_of (entries : List Variable) : (of entries).entries = entries := rfl

theorem ext_entries {vs ws : Variables} (h : vs.entries = ws.entries) : vs = ws := by
  obtain ⟨entries, size, rfl⟩ := vs
  obtain ⟨entries', size', rfl⟩ := ws
  cases h
  rfl

theorem of_entries (vs : Variables) : of vs.entries = vs := ext_entries rfl

theorem exists_of (vs : Variables) : ∃ entries, vs = of entries := ⟨_, (of_entries vs).symm⟩

def get? (vs : Variables) (name : String) : Option String :=
  (vs.entries.find? (·.name == name)).map (·.value)

def takenBy (vs : Variables) (name : String) : Nat :=
  ((vs.entries.find? (·.name == name)).map Variable.packedSize).getD 0

def replaceFirst (name value : String) : List Variable → List Variable
  | [] => []
  | v :: rest =>
    if v.name == name then { v with value } :: rest else v :: replaceFirst name value rest

theorem totalSize_cons (v : Variable) (rest : List Variable) :
    Variable.totalSize (v :: rest) = v.packedSize + Variable.totalSize rest := rfl

theorem totalSize_append (front back : List Variable) :
    Variable.totalSize (front ++ back) = Variable.totalSize front + Variable.totalSize back := by
  induction front with
  | nil => exact (Nat.zero_add _).symm
  | cons v front ih =>
    rw [List.cons_append, totalSize_cons, ih, totalSize_cons, Nat.add_assoc]

theorem takenBy_cons (v : Variable) (rest : List Variable) (name : String) :
    (of (v :: rest)).takenBy name =
      if v.name == name then v.packedSize else (of rest).takenBy name := by
  cases hv : v.name == name <;> simp [takenBy, hv]

theorem totalSize_eraseP (entries : List Variable) (name : String) :
    (of entries).takenBy name + Variable.totalSize (entries.eraseP (·.name == name)) =
      Variable.totalSize entries := by
  induction entries with
  | nil => rfl
  | cons v rest ih =>
    rw [takenBy_cons, List.eraseP_cons, totalSize_cons]
    cases hv : v.name == name with
    | true => rfl
    | false =>
      simp only [cond_false, totalSize_cons, Bool.false_eq_true, if_false]
      omega

theorem totalSize_replaceFirst {entries : List Variable} {name : String}
    (hname : entries.any (·.name == name) = true) (value : String) :
    (of entries).takenBy name + Variable.totalSize (replaceFirst name value entries) =
      Variable.totalSize entries + (Variable.mk name value).packedSize := by
  induction entries with
  | nil => cases hname
  | cons v rest ih =>
    rw [takenBy_cons, replaceFirst, totalSize_cons]
    cases hv : v.name == name with
    | true =>
      obtain rfl := beq_iff_eq.1 hv
      simp only [if_true, totalSize_cons]
      omega
    | false =>
      rw [List.any_cons, hv, Bool.false_or] at hname
      have hrest := ih hname
      simp only [Bool.false_eq_true, if_false, totalSize_cons]
      omega

theorem takenBy_of_not_any {vs : Variables} {name : String}
    (hname : vs.entries.any (·.name == name) = false) : vs.takenBy name = 0 := by
  have hnone : vs.entries.find? (·.name == name) = none := by
    rw [List.find?_eq_none, ← List.any_eq_false]
    exact hname
  rw [takenBy, hnone]
  rfl

/-- The list with a value for a name: in place if the name is there, else at the end. -/
def insert (vs : Variables) (name value : String) : Variables where
  entries :=
    if vs.entries.any (·.name == name) then replaceFirst name value vs.entries
    else vs.entries ++ [⟨name, value⟩]
  packedSize := vs.packedSize - vs.takenBy name + (Variable.mk name value).packedSize
  packedSize_eq := by
    cases hname : vs.entries.any (·.name == name) with
    | true =>
      have hsize := totalSize_replaceFirst hname value
      have hfirst := totalSize_eraseP vs.entries name
      rw [of_entries] at hsize hfirst
      rw [vs.packedSize_eq, if_pos rfl]
      omega
    | false =>
      rw [takenBy_of_not_any hname, vs.packedSize_eq, if_neg (by decide), totalSize_append]
      rfl

def erase (vs : Variables) (name : String) : Variables where
  entries := vs.entries.eraseP (·.name == name)
  packedSize := vs.packedSize - vs.takenBy name
  packedSize_eq := by
    have hfirst := totalSize_eraseP vs.entries name
    rw [of_entries] at hfirst
    rw [vs.packedSize_eq]
    omega

theorem entries_insert (vs : Variables) (name value : String) :
    (vs.insert name value).entries =
      if vs.entries.any (·.name == name) then replaceFirst name value vs.entries
      else vs.entries ++ [⟨name, value⟩] := rfl

theorem packedSize_insert (vs : Variables) (name value : String) :
    (vs.insert name value).packedSize =
      vs.packedSize - vs.takenBy name + (Variable.mk name value).packedSize := rfl

theorem entries_erase (vs : Variables) (name : String) :
    (vs.erase name).entries = vs.entries.eraseP (·.name == name) := rfl

theorem packedSize_erase (vs : Variables) (name : String) :
    (vs.erase name).packedSize = vs.packedSize - vs.takenBy name := rfl

def checkLength (name : String) : Except StoreError Unit :=
  if Variable.maxNameLength < name.utf8ByteSize then
    .error (.sizeExceeded (.nameLength name.utf8ByteSize Variable.maxNameLength))
  else .ok ()

def remove (vs : Variables) (name : String) : Except StoreError Variables := do
  Variable.checkName name
  checkLength name
  if vs.entries.any (·.name == name) then return vs.erase name
  else throw (.notFound name)

/-- Gives a name a value that is not empty, if the list then takes at most `limit` bytes. -/
def put (vs : Variables) (name value : String) (limit : Nat) : Except StoreError Variables := do
  Variable.checkName name
  Variable.checkValue value
  checkLength name
  let needed := (Variable.mk name value).packedSize
  if limit ≤ value.utf8ByteSize ∨ limit < vs.packedSize - vs.takenBy name + needed then
    throw (.sizeExceeded (.list name needed vs.packedSize limit))
  return vs.insert name value

/-- Sets a variable; no value, or an empty one, deletes it. -/
def set (vs : Variables) (name : String) (value : Option String) (limit : Nat) :
    Except StoreError Variables :=
  match value with
  | none => vs.remove name
  | some v => if v.isEmpty then vs.remove name else vs.put name v limit

def isPreserved (v : Variable) : Bool := v.name.toList.head? == some '_'

/-- The variables that outlive an initialization: those whose names begin with an underscore. -/
def preserved (vs : Variables) : Variables := of (vs.entries.filter isPreserved)

end Variables

end BootStore

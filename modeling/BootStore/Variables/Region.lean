import BootStore.Variables

/-!
# Variable regions

Variables packed one after another, then a zero byte that ends the list. Reading keeps every entry
before the first that is malformed, and says where and how reading stopped.
-/
namespace BootStore.Region

def splitZero? (b : Bytes) : Option (Bytes × Bytes) :=
  match b.dropWhile (· != 0) with
  | [] => none
  | _ :: rest => some (b.takeWhile (· != 0), rest)

def readEntry (b : Bytes) : Except EntryDefect (Variable × Bytes) :=
  match splitZero? b with
  | none => .error .unterminatedName
  | some (name, afterName) =>
    match splitZero? afterName with
    | none => .error .unterminatedValue
    | some (value, rest) =>
      match Utf8.decode? name, Utf8.decode? value with
      | some name, some value => .ok (⟨name, value⟩, rest)
      | _, _ => .error .notUtf8

theorem splitZero?_eq {b field rest : Bytes} (h : splitZero? b = some (field, rest)) :
    b = field ++ 0 :: rest := by
  unfold splitZero? at h
  split at h
  · cases h
  · next x tail hd =>
    cases h
    have hx := List.head?_dropWhile_not (· != 0) b
    rw [hd] at hx
    have hx : x = 0 := by simpa using hx
    subst hx
    rw [← hd, List.takeWhile_append_dropWhile]

theorem readEntry_eq {b : Bytes} {v : Variable} {rest : Bytes}
    (h : readEntry b = .ok (v, rest)) : b = v.encode ++ rest := by
  unfold readEntry at h
  split at h
  · cases h
  next name afterName hn =>
  split at h
  · cases h
  next value rest' hv =>
  split at h
  · next n w hn' hw =>
    cases h
    rw [splitZero?_eq hn, splitZero?_eq hv, ← Utf8.decode?_eq_some_iff.1 hn',
      ← Utf8.decode?_eq_some_iff.1 hw]
    simp [Variable.encode]
  · cases h

theorem length_lt_of_readEntry {b : Bytes} {v : Variable} {rest : Bytes}
    (h : readEntry b = .ok (v, rest)) : rest.length < b.length := by
  rw [readEntry_eq h, List.length_append, Variable.length_encode, Variable.packedSize]
  omega

/-- Reads on at `offset`, with the entries before it in `done`, last first. The list ends at an
empty name or with the region. -/
def readFrom (offset : Nat) (done : List Variable) (b : Bytes) :
    Variables × Option RegionDefect :=
  if b.headD 0 = 0 then (.of done.reverse, none)
  else
    match _h : readEntry b with
    | .error cause => (.of done.reverse, some ⟨offset, cause⟩)
    | .ok (v, rest) => readFrom (offset + v.packedSize) (v :: done) rest
  termination_by b.length
  decreasing_by exact length_lt_of_readEntry _h

/-- Every variable before the end of the list or the first malformed entry, and that entry's
defect. -/
def readTolerant (region : Bytes) : Variables × Option RegionDefect := readFrom 0 [] region

def read (region : Bytes) : Except StoreError Variables :=
  match readTolerant region with
  | (vs, none) => .ok vs
  | (_, some defect) => .error (.parse defect)

def encode (vs : Variables) : Bytes := vs.entries.flatMap Variable.encode ++ [0]

/-- Packs a list into the front of a region and gives the number of bytes written, end mark
included. What lies behind them stays. -/
def write (vs : Variables) (region : Bytes) : Except StoreError (Nat × Bytes) :=
  let packed := encode vs
  if region.length < packed.length then
    .error (.sizeExceeded (.region packed.length region.length))
  else .ok (packed.length, packed ++ region.drop packed.length)

theorem length_flatMap_encode (vs : Variables) :
    (vs.entries.flatMap Variable.encode).length = vs.packedSize := by
  obtain ⟨entries, rfl⟩ := vs.exists_of
  show (entries.flatMap Variable.encode).length = Variable.totalSize entries
  induction entries with
  | nil => rfl
  | cons v entries ih => simp [ih, Variables.totalSize_cons]

theorem length_encode (vs : Variables) : (encode vs).length = vs.packedSize + 1 := by
  rw [encode, List.length_append, length_flatMap_encode, List.length_singleton]

end BootStore.Region

import BootStore.Proofs.Packing
import BootStore.Proofs.Updates

/-!
# Filling a copy in place

A copy made in a buffer that held another one is the encoding of its packed variables
(`Copy.encode_of_prepare`). If these do not fit, the header that stood in the buffer still does.
-/
namespace BootStore

namespace Bytes

theorem slice_zeros {n offset length : Nat} (h : offset + length ≤ n) :
    slice (zeros n) offset length = zeros length := by
  rw [slice, zeros, List.drop_replicate, List.take_replicate, Nat.min_eq_left (by omega)]
  rfl

theorem overwrite_append_zeros {n offset k : Nat} (data : Bytes)
    (h : offset + data.length + k ≤ n) :
    overwrite (zeros n) offset (data ++ zeros k) = overwrite (zeros n) offset data := by
  rw [← overwrite_overwrite_next]
  apply ext_getD
  · rw [length_overwrite, length_overwrite, length_zeros, length_zeros]
    omega
  · intro i _
    rw [getD_overwrite, length_zeros, getD_zeros]
    by_cases hbehind : offset + data.length ≤ i ∧ i < offset + data.length + k
    · rw [if_pos hbehind, getD_overwrite, if_neg (by omega), getD_zeros]
    · rw [if_neg hbehind]

end Bytes

namespace Copy

/-- Makes a copy in a buffer of its size. If the variables do not fit, the header fields that stood
in the buffer are put back. -/
def refill (l : Layout) (h : Header) (vs : Variables) (buffer : Bytes) :
    Except StoreError Header × Bytes :=
  let cleared := Bytes.zeros buffer.length
  let packed := Region.pack vs (variableRegion l cleared)
  let copy := Bytes.overwrite cleared l.variableStart packed.2
  match packed.1 with
  | .error e => (.error e, Bytes.overwrite copy 0 (buffer.take headerSize))
  | .ok _ => (.ok (stamp h copy).1, (stamp h copy).2)

variable {l : Layout} {h : Header} {vs : Variables} {t : Slot} {buffer : Bytes}

theorem variableRegion_zeros (l : Layout) :
    variableRegion l (Bytes.zeros l.copySize) = Bytes.zeros l.variableSpace :=
  Bytes.slice_zeros l.variables_le

theorem write_of_prepare {u : Update} (hp : Update.prepare l t h vs = .ok u) :
    ∃ n region, Region.write vs (Bytes.zeros l.variableSpace) = .ok (n, region) ∧
      u.header = (stamp h (Update.unstamped l region)).1 ∧
      u.image = (stamp h (Update.unstamped l region)).2 := by
  unfold Update.prepare at hp
  split at hp
  · cases hp
  next n region hwrite =>
  obtain rfl := (Except.ok.inj hp).symm
  exact ⟨n, region, hwrite, rfl, rfl⟩

theorem write_of_prepare_error {e : StoreError} (hp : Update.prepare l t h vs = .error e) :
    Region.write vs (Bytes.zeros l.variableSpace) = .error e := by
  unfold Update.prepare at hp
  split at hp
  next hwrite => rw [hwrite, Except.error.inj hp]
  · cases hp

theorem refill_of_prepare {u : Update} (hp : Update.prepare l t h vs = .ok u)
    (hbuffer : buffer.length = l.copySize) : refill l h vs buffer = (.ok u.header, u.image) := by
  obtain ⟨n, region, hwrite, hheader, himage⟩ := write_of_prepare hp
  rw [← variableRegion_zeros l, ← hbuffer] at hwrite
  unfold refill
  simp only [Region.pack_of_write hwrite]
  rw [hheader, himage, hbuffer, Update.unstamped]

/-- A buffer that could not be filled keeps its size and the header that stood in it. -/
theorem refill_of_prepare_error {e : StoreError} (hp : Update.prepare l t h vs = .error e)
    (hbuffer : buffer.length = l.copySize) :
    (refill l h vs buffer).1 = .error e ∧ (refill l h vs buffer).2.length = l.copySize ∧
      Header.decode (refill l h vs buffer).2 = Header.decode buffer := by
  have hwrite := write_of_prepare_error hp
  rw [← variableRegion_zeros l, ← hbuffer] at hwrite
  obtain ⟨herr, hlen⟩ := Region.pack_of_write_error hwrite
  have hfields : (buffer.take headerSize).length = headerSize := by
    rw [List.length_take, hbuffer, Layout.copySize_eq]
    exact Nat.min_eq_left (Nat.le_trans headerSize_le_blockSize (Nat.le_add_right _ _))
  have hend := l.variables_le
  rw [length_variableRegion ((Bytes.length_zeros _).trans hbuffer)] at hlen
  unfold refill
  simp only [herr]
  refine ⟨trivial, ?_, ?_⟩
  · rw [Bytes.length_overwrite, Bytes.length_overwrite, Bytes.length_zeros, hlen, hfields, hbuffer]
    simp only [Layout.variableStart] at hend ⊢
    omega
  · rw [Bytes.overwrite_zero, Header.decode_append (Nat.le_of_eq hfields.symm), Header.decode_take]

theorem encode_of_prepare {u : Update} (hp : Update.prepare l t h vs = .ok u) :
    encode l h (Region.encode vs) = .ok u.image := by
  obtain ⟨n, region, hwrite, -, himage⟩ := write_of_prepare hp
  rcases Region.write_cases vs (Bytes.zeros l.variableSpace) with ⟨hroom, hok⟩ | ⟨-, herr⟩
  · rw [hok] at hwrite
    cases hwrite
    have hsize := Region.length_encode vs
    have hend := l.variables_le
    rw [Bytes.length_zeros] at hroom
    have hpadding : (Bytes.zeros l.variableSpace).drop (vs.packedSize + 1) =
        Bytes.zeros (l.variableSpace - (vs.packedSize + 1)) := List.drop_replicate ..
    rw [himage, Update.unstamped, hpadding, Bytes.overwrite_append_zeros _ (by omega), encode,
      if_neg (by omega)]
  · rw [herr] at hwrite
    cases hwrite

end Copy

end BootStore

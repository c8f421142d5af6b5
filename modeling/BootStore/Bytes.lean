/-!
# Byte strings

A stretch of storage as the list of its bytes: cutting a piece out, writing one over what is
there, and the little-endian words that a header is made of.
-/
namespace BootStore

abbrev Bytes := List UInt8

namespace Bytes

def zeros (n : Nat) : Bytes := List.replicate n 0

/-- The bytes from `offset` on, `length` of them or as many as there are. -/
def slice (b : Bytes) (offset length : Nat) : Bytes := (b.drop offset).take length

/-- `b` with `data` written at `offset`. A gap before `offset` is filled with zeros. -/
def overwrite (b : Bytes) (offset : Nat) (data : Bytes) : Bytes :=
  b.take offset ++ (zeros (offset - b.length) ++ (data ++ b.drop (offset + data.length)))

def resize (b : Bytes) (length : Nat) : Bytes :=
  b.take length ++ zeros (length - b.length)

/-- The little-endian 16-bit word at `offset`; bytes past the end count as zero. -/
def word16 (b : Bytes) (offset : Nat) : UInt16 :=
  .ofNat ((b.getD offset 0).toNat + 0x100 * (b.getD (offset + 1) 0).toNat)

def word32 (b : Bytes) (offset : Nat) : UInt32 :=
  .ofNat ((b.getD offset 0).toNat + 0x100 * (b.getD (offset + 1) 0).toNat +
    0x10000 * (b.getD (offset + 2) 0).toNat + 0x1000000 * (b.getD (offset + 3) 0).toNat)

def ofWord16 (w : UInt16) : Bytes := [.ofNat w.toNat, .ofNat (w.toNat / 0x100)]

def ofWord32 (w : UInt32) : Bytes :=
  [.ofNat w.toNat, .ofNat (w.toNat / 0x100), .ofNat (w.toNat / 0x10000), .ofNat (w.toNat / 0x1000000)]

@[simp] theorem length_zeros (n : Nat) : (zeros n).length = n := List.length_replicate

@[simp] theorem length_ofWord16 (w : UInt16) : (ofWord16 w).length = 2 := rfl

@[simp] theorem length_ofWord32 (w : UInt32) : (ofWord32 w).length = 4 := rfl

theorem word16_ofWord16 (w : UInt16) (rest : Bytes) : word16 (ofWord16 w ++ rest) 0 = w := by
  have := w.toNat_lt
  apply UInt16.toNat_inj.1
  simp [word16, ofWord16]
  omega

theorem word32_ofWord32 (w : UInt32) (rest : Bytes) : word32 (ofWord32 w ++ rest) 0 = w := by
  have := w.toNat_lt
  apply UInt32.toNat_inj.1
  simp [word32, ofWord32]
  omega

theorem ofWord16_word16 (x y : UInt8) : ofWord16 (word16 [x, y] 0) = [x, y] := by
  have := x.toNat_lt
  have := y.toNat_lt
  simp only [word16, ofWord16, List.cons.injEq, and_true, ← UInt8.toNat_inj]
  simp
  omega

theorem ofWord32_word32 (x y z w : UInt8) : ofWord32 (word32 [x, y, z, w] 0) = [x, y, z, w] := by
  have := x.toNat_lt
  have := y.toNat_lt
  have := z.toNat_lt
  have := w.toNat_lt
  simp only [word32, ofWord32, List.cons.injEq, and_true, ← UInt8.toNat_inj]
  simp
  omega

theorem length_slice (b : Bytes) (offset length : Nat) :
    (slice b offset length).length = min length (b.length - offset) := by
  simp [slice]

@[simp] theorem length_resize (b : Bytes) (length : Nat) : (resize b length).length = length := by
  simp [resize]; omega

theorem length_overwrite (b : Bytes) (offset : Nat) (data : Bytes) :
    (overwrite b offset data).length = max b.length (offset + data.length) := by
  simp [overwrite]; omega

theorem slice_overwrite (b : Bytes) (offset : Nat) (data : Bytes) :
    slice (overwrite b offset data) offset data.length = data := by
  have h : (b.take offset ++ zeros (offset - b.length)).length = offset := by simp; omega
  rw [slice, overwrite, ← List.append_assoc, List.drop_append_of_le_length (by omega),
    List.drop_of_length_le (by omega), List.nil_append, List.take_left']
  rfl

end Bytes

end BootStore

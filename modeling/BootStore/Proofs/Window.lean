import BootStore.Device.Memory

/-!
# Windows

A stretch of a device with zeros for what lies beyond the device's end. A window decides everything
that is read from a stretch, and writes act on it byte by byte (`getD_overwrite`).
-/
namespace BootStore

namespace Bytes

/-- The `length` bytes from `offset` on, zeros where the storage ends before them. -/
def window (b : Bytes) (offset length : Nat) : Bytes := resize (slice b offset length) length

theorem getD_append (a b : Bytes) (i : Nat) :
    (a ++ b).getD i 0 = if i < a.length then a.getD i 0 else b.getD (i - a.length) 0 := by
  simp only [List.getD_eq_getElem?_getD, List.getElem?_append]
  split <;> rfl

theorem getD_take (b : Bytes) (n i : Nat) :
    (b.take n).getD i 0 = if i < n then b.getD i 0 else 0 := by
  simp only [List.getD_eq_getElem?_getD, List.getElem?_take]
  split <;> rfl

theorem getD_drop (b : Bytes) (n i : Nat) : (b.drop n).getD i 0 = b.getD (n + i) 0 := by
  simp only [List.getD_eq_getElem?_getD, List.getElem?_drop]

theorem getD_zeros (n i : Nat) : (zeros n).getD i 0 = 0 := by
  simp only [zeros, List.getD_eq_getElem?_getD, List.getElem?_replicate]
  split <;> rfl

theorem getD_of_length_le {b : Bytes} {i : Nat} (h : b.length ≤ i) : b.getD i 0 = 0 := by
  rw [List.getD_eq_getElem?_getD, List.getElem?_eq_none h, Option.getD_none]

theorem getD_slice (b : Bytes) (offset length i : Nat) :
    (slice b offset length).getD i 0 = if i < length then b.getD (offset + i) 0 else 0 := by
  rw [slice, getD_take, getD_drop]

theorem getD_resize (b : Bytes) (length i : Nat) :
    (resize b length).getD i 0 = if i < length then b.getD i 0 else 0 := by
  rw [resize, getD_append, getD_take, getD_zeros, List.length_take]
  by_cases hi : i < length
  · by_cases hb : i < b.length
    · rw [if_pos (by omega)]
    · rw [if_neg (by omega), if_pos hi, getD_of_length_le (by omega)]
  · rw [if_neg (by omega), if_neg hi]

/-- A write changes the bytes of its own region; what it uncovers between the old end of the
storage and that region is zero. -/
theorem getD_overwrite (b : Bytes) (offset : Nat) (data : Bytes) (i : Nat) :
    (overwrite b offset data).getD i 0 =
      if offset ≤ i ∧ i < offset + data.length then data.getD (i - offset) 0 else b.getD i 0 := by
  have hfront : overwrite b offset data =
      resize b offset ++ (data ++ b.drop (offset + data.length)) := by
    rw [overwrite, resize, List.append_assoc]
  rw [hfront, getD_append, length_resize, getD_resize]
  by_cases hlo : i < offset
  · rw [if_pos hlo, if_pos hlo, if_neg (by omega)]
  · rw [if_neg hlo, getD_append, getD_drop]
    by_cases hhi : i < offset + data.length
    · rw [if_pos (by omega), if_pos (by omega)]
    · rw [if_neg (by omega), if_neg (by omega)]
      congr 1
      omega

theorem ext_getD {a b : Bytes} (hl : a.length = b.length)
    (h : ∀ i, i < a.length → a.getD i 0 = b.getD i 0) : a = b := by
  apply List.ext_getElem hl
  intro i ha hb
  have hi := h i ha
  rwa [List.getD_eq_getElem?_getD, List.getD_eq_getElem?_getD, List.getElem?_eq_getElem ha,
    List.getElem?_eq_getElem hb] at hi

@[simp] theorem length_window (b : Bytes) (offset length : Nat) :
    (window b offset length).length = length := length_resize _ _

theorem getD_window (b : Bytes) (offset length i : Nat) :
    (window b offset length).getD i 0 = if i < length then b.getD (offset + i) 0 else 0 := by
  rw [window, getD_resize, getD_slice]
  split <;> rfl

theorem slice_eq_window {b : Bytes} {offset length : Nat} (h : offset + length ≤ b.length) :
    slice b offset length = window b offset length := by
  apply ext_getD
  · rw [length_slice, length_window]
    omega
  · intro i _
    rw [getD_slice, getD_window]

theorem slice_congr {b c : Bytes} {offset length : Nat} (hlength : b.length = c.length)
    (h : ∀ i, offset ≤ i → i < offset + length → b.getD i 0 = c.getD i 0) :
    slice b offset length = slice c offset length := by
  apply ext_getD
  · rw [length_slice, length_slice, hlength]
  · intro i hi
    rw [length_slice] at hi
    have hi : i < length := by omega
    rw [getD_slice, getD_slice, if_pos hi, if_pos hi]
    exact h _ (by omega) (by omega)

theorem window_congr {b c : Bytes} {offset length : Nat}
    (h : ∀ i, offset ≤ i → i < offset + length → b.getD i 0 = c.getD i 0) :
    window b offset length = window c offset length := by
  apply ext_getD (by simp)
  intro i hi
  rw [length_window] at hi
  rw [getD_window, getD_window, if_pos hi, if_pos hi]
  exact h _ (by omega) (by omega)

theorem window_of_length_le {b : Bytes} {offset : Nat} (length : Nat) (h : b.length ≤ offset) :
    window b offset length = zeros length := by
  apply ext_getD (by simp)
  intro i _
  rw [getD_window, getD_zeros, getD_of_length_le (by omega), ite_self]

theorem window_append (b : Bytes) (offset m n : Nat) :
    window b offset (m + n) = window b offset m ++ window b (offset + m) n := by
  apply ext_getD (by simp)
  intro i hi
  rw [length_window] at hi
  rw [getD_append, length_window, getD_window, getD_window, getD_window, if_pos hi]
  by_cases hm : i < m
  · rw [if_pos hm, if_pos hm]
  · rw [if_neg hm, if_pos (by omega)]
    congr 1
    omega

theorem window_overwrite_self (b : Bytes) (offset : Nat) (data : Bytes) :
    window (overwrite b offset data) offset data.length = data := by
  apply ext_getD (length_window _ _ _)
  intro i hi
  rw [length_window] at hi
  rw [getD_window, if_pos hi, getD_overwrite, if_pos (by omega), Nat.add_sub_cancel_left]

theorem window_overwrite_front (b : Bytes) (offset : Nat) {data : Bytes} {length : Nat}
    (h : data.length ≤ length) :
    window (overwrite b offset data) offset length =
      data ++ (window b offset length).drop data.length := by
  apply ext_getD
  · rw [List.length_append, List.length_drop, length_window, length_window]
    omega
  · intro i hi
    rw [length_window] at hi
    rw [getD_window, if_pos hi, getD_overwrite, getD_append, getD_drop, getD_window]
    by_cases hfront : i < data.length
    · rw [if_pos (by omega), if_pos hfront, Nat.add_sub_cancel_left]
    · rw [if_neg (by omega), if_neg hfront, if_pos (by omega)]
      congr 1
      omega

theorem window_overwrite_of_disjoint (b : Bytes) {offset start length : Nat} (data : Bytes)
    (h : offset + data.length ≤ start ∨ start + length ≤ offset) :
    window (overwrite b offset data) start length = window b start length := by
  apply window_congr
  intro i hlo hhi
  rw [getD_overwrite, if_neg (by omega)]

/-- Two stretches of storage that differ in one region at most, and that are of one length once
they reach to its end. -/
structure SameBeside (offset length : Nat) (a b : Bytes) : Prop where
  beside : ∀ i, i < offset ∨ offset + length ≤ i → a.getD i 0 = b.getD i 0
  reach : max a.length (offset + length) = max b.length (offset + length)

namespace SameBeside

variable {offset length : Nat} {a b c : Bytes}

theorem refl (a : Bytes) : SameBeside offset length a a := ⟨fun _ _ => rfl, rfl⟩

theorem symm (h : SameBeside offset length a b) : SameBeside offset length b a :=
  ⟨fun i hi => (h.beside i hi).symm, h.reach.symm⟩

theorem trans (h : SameBeside offset length a b) (k : SameBeside offset length b c) :
    SameBeside offset length a c :=
  ⟨fun i hi => (h.beside i hi).trans (k.beside i hi), h.reach.trans k.reach⟩

theorem overwrite (a : Bytes) {start : Nat} {data : Bytes} (hstart : offset ≤ start)
    (hends : start + data.length ≤ offset + length) :
    SameBeside offset length a (Bytes.overwrite a start data) := by
  constructor
  · intro i hi
    rw [getD_overwrite, if_neg (by omega)]
  · rw [length_overwrite]
    omega

theorem eq_of_slice_eq (h : SameBeside offset length a b) (ha : offset + length ≤ a.length)
    (hb : offset + length ≤ b.length) (hs : slice a offset length = slice b offset length) :
    a = b := by
  have hreach := h.reach
  apply ext_getD (by omega)
  intro i _
  by_cases hi : i < offset ∨ offset + length ≤ i
  · exact h.beside i hi
  · have hbyte := congrArg (fun x : Bytes => x.getD (i - offset) 0) hs
    simp only [getD_slice] at hbyte
    rw [if_pos (by omega), if_pos (by omega), Nat.add_sub_cancel' (by omega)] at hbyte
    exact hbyte

theorem slice_eq (h : SameBeside offset length a b) {start n : Nat}
    (hapart : start + n ≤ offset ∨ offset + length ≤ start) (ha : start + n ≤ a.length)
    (hb : start + n ≤ b.length) : slice a start n = slice b start n := by
  rw [slice_eq_window ha, slice_eq_window hb]
  apply window_congr
  intro i hlo hhi
  exact h.beside i (by omega)

end SameBeside

end Bytes

end BootStore

import BootStore.Checksum

/-!
# Burst errors

Moving the register on is linear and loses nothing, so two registers that differ never come to agree
over the same bytes. A change within four consecutive bytes changes the check (`eq_of_crc32_eq`).
-/
namespace BootStore.Checksum

/-- The bits of a register that was moved on: each comes from the next higher one, and the lowest
decides whether the polynomial is added. -/
theorem getLsbD_shiftBit (r : UInt32) (i : Nat) :
    (shiftBit r).toBitVec.getLsbD i =
      (r.toBitVec.getLsbD (1 + i) ^^ (r.toBitVec.getLsbD 0 && (0xEDB88320#32).getLsbD i)) := by
  have hlow : r &&& 1 = 0 ↔ r.toBitVec.getLsbD 0 = false := by
    rw [← UInt32.toBitVec_inj, UInt32.toBitVec_and]
    have hmask := BitVec.and_one_eq_setWidth_ofBool_getLsbD (x := r.toBitVec)
    show r.toBitVec &&& 1#32 = 0#32 ↔ _
    rw [hmask]
    cases r.toBitVec.getLsbD 0 <;> decide
  unfold shiftBit
  by_cases h : r &&& 1 = 0
  · rw [if_pos h, hlow.1 h, UInt32.toBitVec_shiftRight]
    simp
  · rw [if_neg h, eq_true_of_ne_false (mt hlow.2 h), UInt32.toBitVec_xor,
      UInt32.toBitVec_shiftRight]
    simp

theorem shiftBit_xor (a b : UInt32) : shiftBit (a ^^^ b) = shiftBit a ^^^ shiftBit b := by
  apply UInt32.toBitVec_inj.1
  apply BitVec.eq_of_getLsbD_eq
  intro i _
  rw [UInt32.toBitVec_xor, BitVec.getLsbD_xor, getLsbD_shiftBit, getLsbD_shiftBit, getLsbD_shiftBit,
    UInt32.toBitVec_xor, BitVec.getLsbD_xor, BitVec.getLsbD_xor]
  cases a.toBitVec.getLsbD 0 <;> cases b.toBitVec.getLsbD 0 <;>
    cases a.toBitVec.getLsbD (1 + i) <;> cases b.toBitVec.getLsbD (1 + i) <;>
    cases (0xEDB88320#32).getLsbD i <;> rfl

theorem shiftBits_xor (n : Nat) (a b : UInt32) :
    shiftBits n (a ^^^ b) = shiftBits n a ^^^ shiftBits n b := by
  induction n generalizing a b with
  | zero => rfl
  | succ n ih => rw [shiftBits, shiftBit_xor, ih]; rfl

theorem shiftBit_injective {a b : UInt32} (h : shiftBit a = shiftBit b) : a = b := by
  have hbit : ∀ i, (a.toBitVec.getLsbD (1 + i) ^^ (a.toBitVec.getLsbD 0 &&
      (0xEDB88320#32).getLsbD i)) = (b.toBitVec.getLsbD (1 + i) ^^ (b.toBitVec.getLsbD 0 &&
        (0xEDB88320#32).getLsbD i)) := by
    intro i
    rw [← getLsbD_shiftBit, ← getLsbD_shiftBit, h]
  have hlow : a.toBitVec.getLsbD 0 = b.toBitVec.getLsbD 0 := by
    have htop := hbit 31
    rw [BitVec.getLsbD_of_ge _ (1 + 31) (by decide), BitVec.getLsbD_of_ge _ (1 + 31) (by decide)]
      at htop
    simpa using htop
  apply UInt32.toBitVec_inj.1
  apply BitVec.eq_of_getLsbD_eq
  intro i _
  cases i with
  | zero => exact hlow
  | succ i =>
    have hnext := hbit i
    rw [hlow, Bool.xor_left_inj] at hnext
    rw [Nat.add_comm i 1]
    exact hnext

theorem shiftBits_injective {n : Nat} {a b : UInt32} (h : shiftBits n a = shiftBits n b) :
    a = b := by
  induction n generalizing a b with
  | zero => exact h
  | succ n ih => exact shiftBit_injective (ih h)

/-- Low bits that are zero are moved out without a trace. -/
theorem shiftBits_of_shiftLeft (n : Nat) {r w : UInt32} (h : r.toNat = w.toNat <<< n) :
    shiftBits n r = w := by
  induction n generalizing r with
  | zero => exact UInt32.toNat_inj.1 h
  | succ n ih =>
    rw [Nat.shiftLeft_succ, Nat.mul_comm] at h
    have heven : r &&& 1 = 0 := by
      rw [← UInt32.toNat_inj, UInt32.toNat_and]
      show r.toNat &&& 1 = 0
      rw [Nat.and_one_is_mod, h]
      exact Nat.mul_mod_left _ 2
    rw [shiftBits, shiftBit, if_pos heven]
    apply ih
    rw [UInt32.toNat_shiftRight]
    show r.toNat >>> 1 = _
    rw [h, Nat.shiftRight_succ, Nat.shiftRight_zero]
    exact Nat.mul_div_cancel _ (by decide)

theorem feed_injective {r r' : UInt32} {b : UInt8} (h : feed r b = feed r' b) : r = r' :=
  UInt32.xor_left_inj b.toUInt32 |>.1 (shiftBits_injective h)

theorem run_injective {r r' : UInt32} {data : Bytes} (h : run r data = run r' data) : r = r' := by
  induction data generalizing r r' with
  | nil => exact h
  | cons b data ih => exact feed_injective (ih h)

/-- A difference of registers in the low three bytes was, before one more byte each, higher by eight
places, and below it the difference of the bytes. -/
theorem xor_of_feed_xor {r r' : UInt32} {b b' : UInt8}
    (h : (feed r b ^^^ feed r' b').toNat < 1 <<< 24) :
    ∃ raised : UInt32, raised.toNat = (feed r b ^^^ feed r' b').toNat <<< 8 ∧
      r ^^^ r' = raised ^^^ (b ^^^ b').toUInt32 := by
  have hfeed : feed r b ^^^ feed r' b' = shiftBits 8 ((r ^^^ r') ^^^ (b ^^^ b').toUInt32) := by
    rw [feed, feed, ← shiftBits_xor, UInt8.toUInt32_xor]
    congr 1
    ac_rfl
  generalize feed r b ^^^ feed r' b' = y at h hfeed ⊢
  have hraised : (UInt32.ofNat (y.toNat <<< 8)).toNat = y.toNat <<< 8 :=
    UInt32.toNat_ofNat_of_lt' (by simp only [UInt32.size]; omega)
  have hbefore := shiftBits_injective ((shiftBits_of_shiftLeft 8 hraised).trans hfeed)
  refine ⟨_, hraised, ?_⟩
  rw [hbefore, UInt32.xor_assoc, UInt32.xor_self, UInt32.xor_zero]

theorem xor_of_run_eq {a a' : Bytes} (hlen : a.length = a'.length) (hshort : a.length ≤ 4)
    {r r' : UInt32} (h : run r a = run r' a') :
    (r ^^^ r').toNat < 1 <<< (8 * a.length) ∧ (r = r' → a = a') := by
  induction a generalizing a' r r' with
  | nil =>
    cases a' with
    | nil =>
      have hsame : r = r' := h
      rw [hsame, UInt32.xor_self]
      exact ⟨by decide, fun _ => rfl⟩
    | cons b' a' => cases hlen
  | cons b a ih =>
    cases a' with
    | nil => cases hlen
    | cons b' a' =>
      rw [List.length_cons] at hshort
      obtain ⟨hlow, hrest⟩ := ih (Nat.succ.inj hlen) (by omega) h
      have hthree : 1 <<< (8 * a.length) ≤ 1 <<< 24 := by
        rw [Nat.one_shiftLeft, Nat.one_shiftLeft]
        exact Nat.pow_le_pow_right (by decide) (by omega)
      obtain ⟨raised, hraised, hxor⟩ := xor_of_feed_xor (Nat.lt_of_lt_of_le hlow hthree)
      have hbyte : (b ^^^ b').toUInt32.toNat < 2 ^ 8 := (b ^^^ b').toNat_lt
      constructor
      · rw [hxor, UInt32.toNat_xor, List.length_cons, Nat.mul_add, Nat.one_shiftLeft]
        rw [Nat.one_shiftLeft] at hlow
        apply Nat.xor_lt_two_pow
        · rw [hraised, Nat.shiftLeft_eq, Nat.pow_add]
          exact Nat.mul_lt_mul_of_pos_right hlow (by decide)
        · exact Nat.lt_of_lt_of_le hbyte (Nat.pow_le_pow_right (by decide) (by omega))
      · -- the difference of the first bytes lies below the lowest place of the other
        intro hsame
        rw [hsame, UInt32.xor_self, eq_comm, UInt32.xor_eq_zero_iff] at hxor
        rw [hxor] at hraised
        have hfeed : (feed r b ^^^ feed r' b').toNat = 0 := by omega
        have hfirst : (b ^^^ b').toUInt32.toNat = 0 := by omega
        have hb : b = b' := UInt8.xor_eq_zero_iff.1 (UInt8.toNat_inj.1 hfirst)
        have ha : a = a' := hrest (UInt32.xor_eq_zero_iff.1 (UInt32.toNat_inj.1 hfeed))
        rw [hb, ha]

/-- Bytes of one length, in a stretch of at most four, that take a register to the same one are the
same. -/
theorem eq_of_run_eq {a a' : Bytes} (hlen : a.length = a'.length) (hshort : a.length ≤ 4)
    {r : UInt32} (h : run r a = run r a') : a = a' :=
  (xor_of_run_eq hlen hshort h).2 rfl

theorem eq_of_crc32_eq (front back : Bytes) {a a' : Bytes} (hlen : a.length = a'.length)
    (hshort : a.length ≤ 4) (h : crc32 (front ++ a ++ back) = crc32 (front ++ a' ++ back)) :
    a = a' := by
  rw [crc32_append, crc32_append, UInt32.not_inj] at h
  have hstretch := run_injective h
  rw [run_append, run_append] at hstretch
  exact eq_of_run_eq hlen hshort hstretch

/-- The digits from 1 to 9 have the check value of the standard, and lose it with a 0 for the 5. -/
example : crc32 [0x31, 0x32, 0x33, 0x34, 0x35, 0x36, 0x37, 0x38, 0x39] = 0xCBF43926 ∧
    crc32 [0x31, 0x32, 0x33, 0x34, 0x30, 0x36, 0x37, 0x38, 0x39] ≠ 0xCBF43926 := by
  decide +kernel

end BootStore.Checksum

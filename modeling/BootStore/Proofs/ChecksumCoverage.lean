import BootStore.Proofs.BurstErrors
import BootStore.Proofs.Restamping

/-!
# What the checksums cover

Which changes to an accepted copy are noticed (`Copy.checksum_coverage`). What lies in the header
block behind the header fields is covered by the block's own checksum alone.
-/
namespace BootStore

namespace Bytes

/-- Bytes of the same length that differ in one region at most. -/
structure AlteredIn (start length : Nat) (a b : Bytes) : Prop where
  beside : SameBeside start length a b
  length_eq : b.length = a.length

def flipBit (b : Bytes) (i bit : Nat) : Bytes := b.modify i (· ^^^ UInt8.ofNat (1 <<< bit))

theorem alteredIn_flipBit (b : Bytes) (i bit : Nat) : AlteredIn i 1 b (b.flipBit i bit) := by
  have hlen : (b.flipBit i bit).length = b.length := List.length_modify _ _ _
  refine ⟨⟨?_, by rw [hlen]⟩, hlen⟩
  intro j hj
  have hne : i ≠ j := by omega
  rw [List.getD_eq_getElem?_getD, List.getD_eq_getElem?_getD, flipBit,
    List.getElem?_modify_ne _ b hne]

theorem flipBit_ne {b : Bytes} {i bit : Nat} (hi : i < b.length) (hbit : bit < 8) :
    b.flipBit i bit ≠ b := by
  intro hsame
  have hone : ∀ k, k < 8 → UInt8.ofNat (1 <<< k) ≠ 0 := by decide
  have hbyte := congrArg (fun x : Bytes => x[i]?) hsame
  simp only [flipBit, List.getElem?_modify_eq, List.getElem?_eq_getElem hi, Option.map_eq_map,
    Option.map_some, Option.some.injEq] at hbyte
  have hkept : b[i] ^^^ UInt8.ofNat (1 <<< bit) = b[i] ^^^ 0 := by rw [hbyte, UInt8.xor_zero]
  exact hone bit hbit ((UInt8.xor_right_inj _).1 hkept)

namespace AlteredIn

variable {start n : Nat} {a b : Bytes}

theorem mono (h : AlteredIn start n a b) {start' n' : Nat} (hstart : start' ≤ start)
    (hends : start + n ≤ start' + n') : AlteredIn start' n' a b :=
  ⟨⟨fun i hi => h.beside.beside i (by omega), by rw [h.length_eq]⟩, h.length_eq⟩

theorem slice (h : AlteredIn start n a b) {offset length : Nat} (hstart : offset ≤ start) :
    AlteredIn (start - offset) n (a.slice offset length) (b.slice offset length) := by
  have hlen : (b.slice offset length).length = (a.slice offset length).length := by
    rw [length_slice, length_slice, h.length_eq]
  refine ⟨⟨?_, by rw [hlen]⟩, hlen⟩
  intro i hi
  rw [getD_slice, getD_slice, h.beside.beside (offset + i) (by omega)]

theorem slice_eq (h : AlteredIn start n a b) {offset length : Nat}
    (hapart : offset + length ≤ start ∨ start + n ≤ offset) :
    b.slice offset length = a.slice offset length := by
  apply ext_getD
  · rw [length_slice, length_slice, h.length_eq]
  · intro i _
    rw [getD_slice, getD_slice]
    by_cases hi : i < length
    · rw [if_pos hi, if_pos hi, h.beside.beside (offset + i) (by omega)]
    · rw [if_neg hi, if_neg hi]

theorem take_eq (h : AlteredIn start n a b) {k : Nat} (hk : k ≤ start) : b.take k = a.take k := by
  have hslice : b.slice 0 k = a.slice 0 k := h.slice_eq (Or.inl (by omega))
  exact hslice

theorem drop_eq (h : AlteredIn start n a b) {k : Nat} (hk : start + n ≤ k) :
    b.drop k = a.drop k := by
  have hrest : ∀ x : Bytes, x.length = a.length → x.slice k a.length = x.drop k := by
    intro x hx
    exact List.take_of_length_le (by rw [List.length_drop, hx]; exact Nat.sub_le _ _)
  rw [← hrest b h.length_eq, ← hrest a rfl]
  exact h.slice_eq (Or.inr hk)

theorem eq_of_slice_eq (h : AlteredIn start n a b) (hends : start + n ≤ a.length)
    (hs : b.slice start n = a.slice start n) : b = a :=
  (h.beside.eq_of_slice_eq hends (by rw [h.length_eq]; exact hends) hs.symm).symm

theorem eq_of_crc32_eq (h : AlteredIn start n a b) (hn : n ≤ 4) (hends : start + n ≤ a.length)
    (front : Bytes) (hcrc : Checksum.crc32 (front ++ b) = Checksum.crc32 (front ++ a)) :
    b = a := by
  have hsplit : ∀ x : Bytes, x = x.take start ++ x.slice start n ++ x.drop (start + n) := by
    intro x
    rw [Bytes.slice, ← List.take_add, List.take_append_drop]
  have hlen : (b.slice start n).length = n ∧ (a.slice start n).length = n := by
    rw [length_slice, length_slice, h.length_eq]
    omega
  apply h.eq_of_slice_eq hends
  apply Checksum.eq_of_crc32_eq (front ++ a.take start) (a.drop (start + n))
  · rw [hlen.1, hlen.2]
  · rw [hlen.1]
    exact hn
  · rw [hsplit a, hsplit b, h.take_eq (Nat.le_refl _), h.drop_eq (Nat.le_refl _)] at hcrc
    simpa only [List.append_assoc] using hcrc

theorem eq_of_crc32_slice_eq (h : AlteredIn start n a b) (hn : n ≤ 4) {offset length : Nat}
    (hstart : offset ≤ start) (hends : start + n ≤ offset + length)
    (hlong : offset + length ≤ a.length) (front : Bytes)
    (hcrc : Checksum.crc32 (front ++ b.slice offset length) =
      Checksum.crc32 (front ++ a.slice offset length)) : b = a := by
  have hslice := (h.slice hstart).eq_of_crc32_eq hn (by rw [length_slice]; omega) front hcrc
  exact (h.mono hstart hends).eq_of_slice_eq hlong hslice

theorem eq_of_word32_eq (h : AlteredIn start 4 a b) (hends : start + 4 ≤ a.length)
    (hword : word32 b start = word32 a start) : b = a := by
  apply h.eq_of_slice_eq hends
  rw [← ofWord32_word32_eq_slice (by rw [h.length_eq]; exact hends),
    ← ofWord32_word32_eq_slice hends, hword]

end AlteredIn

end Bytes

theorem Header.decode_of_alteredIn_checksum {a b : Bytes} {h : Header}
    (hab : a.AlteredIn Copy.checksumOffset checksumSize b) (hd : decode a = .ok h) :
    ∃ c, decode b = .ok { h with checksum := c } := by
  have hbyte : ∀ i, i < Copy.checksumOffset ∨ Copy.checksumOffset + checksumSize ≤ i →
      (b.take headerSize).getD i 0 = (a.take headerSize).getD i 0 := by
    intro i hi
    rw [Bytes.getD_take, Bytes.getD_take, hab.beside.beside i hi]
  have hmagic : (b.take headerSize).take 8 = (a.take headerSize).take 8 := by
    rw [List.take_take, List.take_take]
    exact hab.take_eq (by decide)
  have hversion : Bytes.word16 (b.take headerSize) 8 = Bytes.word16 (a.take headerSize) 8 := by
    rw [Bytes.word16, Bytes.word16, hbyte _ (by decide), hbyte _ (by decide)]
  have hsectors : Bytes.word16 (b.take headerSize) 18 = Bytes.word16 (a.take headerSize) 18 := by
    rw [Bytes.word16, Bytes.word16, hbyte _ (by decide), hbyte _ (by decide)]
  have hlen : (b.take headerSize).length = (a.take headerSize).length := by
    rw [List.length_take, List.length_take, hab.length_eq]
  refine ⟨Bytes.word32 (b.take headerSize) 12, ?_⟩
  unfold decode at hd ⊢
  simp only [hmagic, hversion, hsectors, hlen, hbyte 10 (by decide), hbyte 11 (by decide),
    hbyte 16 (by decide)] at hd ⊢
  split at hd
  · cases hd
  next hlong =>
  split at hd
  · cases hd
  next hbegins =>
  split at hd
  · cases hd
  next hnew =>
  cases hd
  rw [if_neg hlong, if_neg hbegins, if_neg hnew]

namespace Copy

variable {l : Layout} {copy other : Bytes} {h : Header} {start n : Nat}

structure Sound (l : Layout) (copy : Bytes) (h : Header) : Prop where
  long : blockSize + checksumSize ≤ copy.length
  header : headerFor l copy = .ok h
  block : headerIntact copy = true
  extension : extensionIntact copy = true

theorem sound_of_validate (hvalid : validate l true copy = .ok h) : Sound l copy h := by
  obtain ⟨hheader, hblock, hextension⟩ := validate_eq_ok_iff.1 hvalid
  have hlong := hextension
  rw [extensionIntact, Bool.and_eq_true, decide_eq_true_eq] at hlong
  exact ⟨hlong.1, hheader, hblock rfl, hextension⟩

theorem validate_of_extension {v : Bool} (hheader : headerFor l copy = .ok h)
    (hblock : v = true → headerIntact copy = true) (hextension : extensionIntact copy = false) :
    validate l v copy = .error .extensionChecksum := by
  unfold validate
  rw [hheader, hextension]
  cases v with
  | false => rfl
  | true =>
    rw [hblock rfl]
    rfl

theorem validate_of_block (hheader : headerFor l copy = .ok h)
    (hblock : headerIntact copy = false) : validate l true copy = .error .headerChecksum := by
  unfold validate
  rw [hheader, hblock]
  rfl

theorem headerFor_of_alteredIn (hother : copy.AlteredIn start n other)
    (hstart : headerSize ≤ start) : headerFor l other = headerFor l copy := by
  rw [headerFor, headerFor, ← Header.decode_take other, hother.take_eq hstart, Header.decode_take]

theorem headerFor_of_alteredIn_checksum (hother : copy.AlteredIn checksumOffset checksumSize other)
    (hheader : headerFor l copy = .ok h) :
    ∃ c, headerFor l other = .ok { h with checksum := c } := by
  obtain ⟨hdecode, hsectors⟩ := headerFor_eq_ok hheader
  obtain ⟨c, hother'⟩ := Header.decode_of_alteredIn_checksum hother hdecode
  refine ⟨c, ?_⟩
  rw [headerFor, hother']
  exact if_pos hsectors

theorem headerIntact_of_alteredIn (hother : copy.AlteredIn start n other)
    (hlong : blockSize ≤ copy.length) (hstart : blockSize ≤ start) :
    headerIntact other = headerIntact copy := by
  have hlen : (copy.take blockSize).length = blockSize := by
    rw [List.length_take]
    exact Nat.min_eq_left hlong
  rw [← List.take_append_drop blockSize other, ← List.take_append_drop blockSize copy,
    hother.take_eq hstart, headerIntact_append (Nat.le_of_eq hlen.symm),
    headerIntact_append (Nat.le_of_eq hlen.symm)]

theorem extensionIntact_of_alteredIn (hother : copy.AlteredIn start n other)
    (hends : start + n ≤ blockSize) : extensionIntact other = extensionIntact copy :=
  extensionIntact_congr hother.length_eq (hother.drop_eq hends)

namespace Sound

variable (hs : Sound l copy h)
include hs

/-- Where the extension's checksum holds again after a change within four bytes of what it covers,
nothing was changed. -/
theorem eq_of_altered_data (hother : copy.AlteredIn start n other) (hn : n ≤ 4)
    (hstart : blockSize ≤ start) (hends : start + n ≤ copy.length - checksumSize)
    (hintact : extensionIntact other = true) : other = copy := by
  have hlong := hs.long
  have hsum := (extensionIntact_iff hlong).1 hs.extension
  have hword : Bytes.word32 other (copy.length - checksumSize) =
      Bytes.word32 copy (copy.length - checksumSize) := by
    rw [← Bytes.word32_drop other, ← Bytes.word32_drop copy, hother.drop_eq hends]
  rw [extensionIntact_iff (by rw [hother.length_eq]; exact hlong), hother.length_eq, hword, ← hsum,
    extensionData, extensionData, hother.length_eq] at hintact
  have hdata : blockSize + (copy.length - (blockSize + checksumSize)) =
      copy.length - checksumSize := by
    obtain ⟨k, hk⟩ := Nat.exists_eq_add_of_le hlong
    rw [hk, Nat.add_sub_cancel_left, Nat.add_assoc, Nat.add_left_comm, Nat.add_sub_cancel_left]
  rw [← List.nil_append (Bytes.slice other _ _), ← List.nil_append (Bytes.slice copy _ _)]
    at hintact
  refine hother.eq_of_crc32_slice_eq hn hstart ?_ ?_ [] hintact
  · rw [hdata]
    exact hends
  · rw [hdata]
    exact Nat.sub_le _ _

theorem eq_of_altered_tail
    (hother : copy.AlteredIn (copy.length - checksumSize) checksumSize other)
    (hintact : extensionIntact other = true) : other = copy := by
  have hlong := hs.long
  have hsum := (extensionIntact_iff hlong).1 hs.extension
  have hdata : extensionData other = extensionData copy := by
    rw [extensionData, extensionData, hother.length_eq]
    exact hother.slice_eq (Or.inl (by omega))
  rw [extensionIntact_iff (by rw [hother.length_eq]; exact hlong), hother.length_eq, hdata, hsum]
    at hintact
  have hends : copy.length - checksumSize + 4 = copy.length :=
    Nat.sub_add_cancel (Nat.le_trans (by decide) hlong)
  exact hother.eq_of_word32_eq (Nat.le_of_eq hends) hintact.symm

/-- Where the header block's checksum holds again after a change within four bytes behind the header
fields, nothing was changed. -/
theorem eq_of_altered_block (hother : copy.AlteredIn start n other) (hn : n ≤ 4)
    (hstart : headerSize ≤ start) (hends : start + n ≤ blockSize)
    (hintact : headerIntact other = true) : other = copy := by
  have hlong : blockSize ≤ copy.length := Nat.le_trans (by decide) hs.long
  have hsum := (headerIntact_iff hlong).1 hs.block
  have hword : Bytes.word32 other checksumOffset = Bytes.word32 copy checksumOffset := by
    rw [← Bytes.word32_take (show checksumOffset + 4 ≤ headerSize by decide), hother.take_eq hstart,
      Bytes.word32_take (by decide)]
  rw [headerIntact_iff (by rw [hother.length_eq]; exact hlong), hword, ← hsum, headerChecksum,
    headerChecksum, List.drop_take, List.drop_take,
    hother.take_eq (Nat.le_trans (by decide) hstart)] at hintact
  have hfields : checksumOffset + checksumSize ≤ headerSize := by decide
  exact hother.eq_of_crc32_slice_eq hn (Nat.le_trans hfields hstart)
    (Nat.le_trans hends (by decide)) hlong _ hintact

theorem eq_of_altered_checksum (hother : copy.AlteredIn checksumOffset checksumSize other)
    (hintact : headerIntact other = true) : other = copy := by
  have hlong : blockSize ≤ copy.length := Nat.le_trans (by decide) hs.long
  have hsum := (headerIntact_iff hlong).1 hs.block
  have hrest : headerChecksum other = headerChecksum copy := by
    rw [headerChecksum, headerChecksum, List.drop_take, List.drop_take,
      hother.take_eq (Nat.le_refl _), hother.drop_eq (Nat.le_refl _)]
  rw [headerIntact_iff (by rw [hother.length_eq]; exact hlong), hrest, hsum] at hintact
  exact hother.eq_of_word32_eq (Nat.le_trans (by decide) hlong) hintact.symm

/-- Behind the header block, only the extension's checksum can reject a change, and it counts with
either setting. -/
theorem rejected_behind_block (hother : copy.AlteredIn start n other) (hstart : blockSize ≤ start)
    (hbroken : extensionIntact other = false) (v : Bool) :
    validate l v other = .error .extensionChecksum := by
  have hlong : blockSize ≤ copy.length := Nat.le_trans (by decide) hs.long
  have hfields := Nat.le_trans headerSize_le_blockSize hstart
  apply validate_of_extension ((headerFor_of_alteredIn hother hfields).trans hs.header) _ hbroken
  intro _
  rw [headerIntact_of_alteredIn hother hlong hstart, hs.block]

theorem rejected_data (hother : copy.AlteredIn start n other) (hne : other ≠ copy) (hn : n ≤ 4)
    (hstart : blockSize ≤ start) (hends : start + n ≤ copy.length - checksumSize) (v : Bool) :
    validate l v other = .error .extensionChecksum := by
  apply hs.rejected_behind_block hother hstart
  rw [← Bool.not_eq_true]
  exact fun hintact => hne (hs.eq_of_altered_data hother hn hstart hends hintact)

theorem rejected_tail (hother : copy.AlteredIn (copy.length - checksumSize) checksumSize other)
    (hne : other ≠ copy) (v : Bool) : validate l v other = .error .extensionChecksum := by
  apply hs.rejected_behind_block hother (Nat.le_sub_of_add_le hs.long)
  rw [← Bool.not_eq_true]
  exact fun hintact => hne (hs.eq_of_altered_tail hother hintact)

/-- Unless the header block is checked, what stands in it behind the header fields is not seen. -/
theorem accepted_unverified (hother : copy.AlteredIn start n other) (hstart : headerSize ≤ start)
    (hends : start + n ≤ blockSize) : validate l false other = .ok h := by
  refine validate_eq_ok_iff.2 ⟨(headerFor_of_alteredIn hother hstart).trans hs.header, ?_, ?_⟩
  · intro hchecked
    cases hchecked
  · exact (extensionIntact_of_alteredIn hother hends).trans hs.extension

theorem rejected_block (hother : copy.AlteredIn start n other) (hne : other ≠ copy) (hn : n ≤ 4)
    (hstart : headerSize ≤ start) (hends : start + n ≤ blockSize) :
    validate l true other = .error .headerChecksum := by
  apply validate_of_block ((headerFor_of_alteredIn hother hstart).trans hs.header)
  rw [← Bool.not_eq_true]
  exact fun hintact => hne (hs.eq_of_altered_block hother hn hstart hends hintact)

theorem rejected_checksum (hother : copy.AlteredIn checksumOffset checksumSize other)
    (hne : other ≠ copy) : validate l true other = .error .headerChecksum := by
  obtain ⟨c, hheader⟩ := headerFor_of_alteredIn_checksum hother hs.header
  apply validate_of_block hheader
  rw [← Bool.not_eq_true]
  exact fun hintact => hne (hs.eq_of_altered_checksum hother hintact)

end Sound

/-- What the checksums cover, on a copy that is accepted with its header block checked. A change
within four consecutive bytes of the extension's data, or to its checksum, is noticed with either
setting. Behind the header fields, the header block may be changed in any way unless it is checked;
if it is, a change there within four consecutive bytes is noticed, and so is one to the block's
checksum. In particular each single bit in these places is covered in this way. -/
theorem checksum_coverage (hlen : copy.length = l.copySize)
    (hvalid : validate l true copy = .ok h) :
    (∀ start n other, copy.AlteredIn start n other → other ≠ copy → n ≤ 4 → blockSize ≤ start →
      start + n ≤ l.copySize - checksumSize → ∀ v, validate l v other = .error .extensionChecksum) ∧
    (∀ other, copy.AlteredIn (l.copySize - checksumSize) checksumSize other → other ≠ copy →
      ∀ v, validate l v other = .error .extensionChecksum) ∧
    (∀ other, copy.AlteredIn headerSize (blockSize - headerSize) other →
      validate l false other = .ok h) ∧
    (∀ start n other, copy.AlteredIn start n other → other ≠ copy → n ≤ 4 → headerSize ≤ start →
      start + n ≤ blockSize → validate l true other = .error .headerChecksum) ∧
    (∀ other, copy.AlteredIn checksumOffset checksumSize other → other ≠ copy →
      validate l true other = .error .headerChecksum) ∧
    ∀ i bit, bit < 8 →
      (blockSize ≤ i → i < l.copySize →
        ∀ v, validate l v (copy.flipBit i bit) = .error .extensionChecksum) ∧
      (headerSize ≤ i → i < blockSize → validate l false (copy.flipBit i bit) = .ok h ∧
        validate l true (copy.flipBit i bit) = .error .headerChecksum) ∧
      (checksumOffset ≤ i → i < checksumOffset + checksumSize →
        validate l true (copy.flipBit i bit) = .error .headerChecksum) := by
  have hs := sound_of_validate hvalid
  have hlong := hs.long
  have hblock : blockSize ≤ copy.length := Nat.le_trans (by decide) hlong
  rw [← hlen]
  refine ⟨fun _ _ _ => hs.rejected_data, fun _ => hs.rejected_tail, ?_,
    fun _ _ _ => hs.rejected_block, fun _ => hs.rejected_checksum, ?_⟩
  · intro other hother
    exact hs.accepted_unverified hother (Nat.le_refl _)
      (Nat.le_of_eq (Nat.add_sub_cancel' headerSize_le_blockSize))
  intro i bit hbit
  have hflip := copy.alteredIn_flipBit i bit
  refine ⟨?_, ?_, ?_⟩
  · intro hstart hi
    have hne := Bytes.flipBit_ne hi hbit
    by_cases hend : i < copy.length - checksumSize
    · exact hs.rejected_data hflip hne (by decide) hstart hend
    · have hlast : i + 1 ≤ copy.length - checksumSize + checksumSize := by
        rw [Nat.sub_add_cancel (Nat.le_trans (by decide) hlong)]
        exact hi
      exact hs.rejected_tail (hflip.mono (Nat.le_of_not_lt hend) hlast) hne
  · intro hstart hi
    have hne := Bytes.flipBit_ne (Nat.lt_of_lt_of_le hi hblock) hbit
    exact ⟨hs.accepted_unverified hflip hstart hi,
      hs.rejected_block hflip hne (by decide) hstart hi⟩
  · intro hstart hi
    have hin : i < copy.length := Nat.lt_of_lt_of_le hi (Nat.le_trans (by decide) hblock)
    exact hs.rejected_checksum (hflip.mono hstart hi) (Bytes.flipBit_ne hin hbit)

/-- An empty copy of 1024 bytes: single bits of its data, of its checksum and of its header block,
and a burst of four bytes over the border of two words. -/
theorem checksum_coverage_empty_copy :
    let l : Layout := ⟨1, 0, 1024⟩
    let copy := (stamp (.fresh 0 0 7 1) (Bytes.zeros 1024)).2
    copy.length = l.copySize ∧
      validate l false (copy.flipBit 600 7) = .error .extensionChecksum ∧
      validate l true (copy.flipBit 1023 0) = .error .extensionChecksum ∧
      (validate l false (copy.flipBit 100 3)).isOk = true ∧
      validate l true (copy.flipBit 100 3) = .error .headerChecksum ∧
      ∀ other, copy.AlteredIn 514 4 other → other ≠ copy →
        validate l false other = .error .extensionChecksum := by
  intro l copy
  have hzeros : (Bytes.zeros 1024).length = 1024 := List.length_replicate
  have hlong : blockSize + checksumSize ≤ (Bytes.zeros 1024).length := by
    rw [hzeros]
    decide
  have hsize : l.copySize = 1024 := by decide
  have hlen : copy.length = l.copySize := by
    rw [hsize, ← hzeros]
    exact length_stamp (Nat.le_trans (by decide) hlong)
  have hvalid : validate l true copy = .ok (stamp (.fresh 0 0 7 1) (Bytes.zeros 1024)).1 :=
    validate_stamp _ hlong true (by decide) rfl
  obtain ⟨hdata, -, -, -, -, hflips⟩ := checksum_coverage hlen hvalid
  obtain ⟨hfree, hblock⟩ := (hflips 100 3 (by decide)).2.1 (by decide) (by decide)
  refine ⟨hlen, (hflips 600 7 (by decide)).1 (by decide) (by decide) false,
    (hflips 1023 0 (by decide)).1 (by decide) (by decide) true, ?_, hblock, ?_⟩
  · rw [hfree]
    rfl
  · intro other hother hne
    exact hdata 514 4 other hother hne (Nat.le_refl _) (by decide) (by decide) false

end Copy

end BootStore

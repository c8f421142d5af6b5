import BootStore.Proofs.Stamp
import BootStore.Proofs.Window

/-!
# Stamping and decoding

Stamping a copy and decoding its header undo each other (`Copy.stamping_inverts_decoding`), but for
the byte among the header fields that no field uses: it has to be zero, as stamping makes it.
-/
namespace BootStore

namespace Bytes

variable {b : Bytes} {offset n : Nat}

theorem slice_eq_map (h : offset + n ≤ b.length) :
    slice b offset n = (List.range n).map fun i => b.getD (offset + i) 0 := by
  apply List.ext_getElem
  · rw [length_slice, List.length_map, List.length_range]
    omega
  · intro i hi _
    rw [length_slice] at hi
    have hbyte : offset + i < b.length := by omega
    rw [List.getElem_map, List.getElem_range, List.getD_eq_getElem?_getD,
      List.getElem?_eq_getElem hbyte, Option.getD_some]
    simp only [slice, List.getElem_take, List.getElem_drop]

theorem ofWord16_word16_eq_slice (h : offset + 2 ≤ b.length) :
    ofWord16 (word16 b offset) = slice b offset 2 := by
  rw [slice_eq_map h]
  exact ofWord16_word16 (b.getD offset 0) (b.getD (offset + 1) 0)

theorem word32_take (h : offset + 4 ≤ n) : word32 (b.take n) offset = word32 b offset := by
  simp only [word32, getD_take]
  rw [if_pos (by omega), if_pos (by omega), if_pos (by omega), if_pos (by omega)]

theorem word32_drop (b : Bytes) (n : Nat) : word32 (b.drop n) 0 = word32 b n := by
  simp only [word32, getD_drop, Nat.add_zero, Nat.zero_add]

theorem ofWord32_word32_eq_slice (h : offset + 4 ≤ b.length) :
    ofWord32 (word32 b offset) = slice b offset 4 := by
  rw [slice_eq_map h]
  exact ofWord32_word32 (b.getD offset 0) (b.getD (offset + 1) 0) (b.getD (offset + 2) 0)
    (b.getD (offset + 3) 0)

end Bytes

namespace Header

/-- The byte of the header fields that no field uses. -/
def reservedOffset : Nat := 17

theorem decode_eq_ok {bytes : Bytes} {h : Header} (hd : decode bytes = .ok h) :
    headerSize ≤ bytes.length ∧ bytes.take 8 = magic ∧ formatVersion ≤ h.version ∧
      h = ⟨Bytes.word16 (bytes.take headerSize) 8, (bytes.take headerSize).getD 10 0,
        (bytes.take headerSize).getD 11 0, Bytes.word32 (bytes.take headerSize) 12,
        (bytes.take headerSize).getD 16 0, Bytes.word16 (bytes.take headerSize) 18⟩ := by
  unfold decode at hd
  simp only at hd
  split at hd
  · cases hd
  next hlong =>
  split at hd
  · cases hd
  next hmagic =>
  split at hd
  · cases hd
  next hversion =>
  cases hd
  rw [List.length_take] at hlong
  have hfront : (bytes.take headerSize).take 8 = bytes.take 8 := by
    rw [List.take_take]
    rfl
  refine ⟨by omega, ?_, UInt16.not_lt.1 hversion, rfl⟩
  rw [← hfront]
  exact Decidable.not_not.1 hmagic

/-- Decoding loses nothing of header fields whose unused byte is zero. -/
theorem encode_of_decode {bytes : Bytes} {h : Header} (hd : decode bytes = .ok h)
    (hreserved : bytes.getD reservedOffset 0 = 0) : h.encode = bytes.take headerSize := by
  obtain ⟨hlong, hmagic, -, hh⟩ := decode_eq_ok hd
  generalize hblock : bytes.take headerSize = block at hh ⊢
  have hlen : block.length = 20 := by
    rw [← hblock, List.length_take]
    exact Nat.min_eq_left hlong
  have hfront : block.take 8 = magic := by
    rw [← hblock, List.take_take]
    exact hmagic
  have hunused : block.getD 17 0 = 0 := by
    rw [← hblock, Bytes.getD_take, if_pos (by decide)]
    exact hreserved
  have hbyte : ∀ i, i < 20 → Bytes.slice block i 1 = [block.getD i 0] := by
    intro i hi
    exact Bytes.slice_eq_map (by omega)
  have hnext : ∀ i n, block.take (i + n) = block.take i ++ Bytes.slice block i n := fun i n =>
    List.take_add
  have hwhole : block = block.take 20 := (List.take_of_length_le (by omega)).symm
  rw [hwhole, hnext 18 2, hnext 17 1, hnext 16 1, hnext 12 4, hnext 11 1, hnext 10 1, hnext 8 2,
    hfront, hbyte 17 (by omega), hbyte 16 (by omega), hbyte 11 (by omega), hbyte 10 (by omega),
    hunused, ← Bytes.ofWord16_word16_eq_slice (by omega),
    ← Bytes.ofWord16_word16_eq_slice (by omega),
    ← Bytes.ofWord32_word32_eq_slice (by omega), hh]
  simp only [encode, List.append_assoc, List.cons_append, List.nil_append]

end Header

namespace Copy

theorem headerIntact_iff {copy : Bytes} (hc : blockSize ≤ copy.length) :
    headerIntact copy = true ↔ headerChecksum copy = Bytes.word32 copy checksumOffset := by
  rw [headerIntact, headerChecksum?, if_pos hc, beq_iff_eq, Option.some.injEq]

theorem extensionIntact_iff {copy : Bytes} (hc : blockSize + checksumSize ≤ copy.length) :
    extensionIntact copy = true ↔ Checksum.crc32 (extensionData copy) =
      Bytes.word32 copy (copy.length - checksumSize) := by
  rw [extensionIntact, decide_eq_true hc, Bool.true_and, beq_iff_eq, Bytes.word32_drop]

section Stamp

variable (h : Header) {copy : Bytes} (hc : blockSize + checksumSize ≤ copy.length)
include hc

theorem getElem?_stamp {i : Nat} (hfields : headerSize ≤ i)
    (hend : i < copy.length - checksumSize) : (stamp h copy).2[i]? = copy[i]? := by
  have hbody : i < (stampBody h copy).length := by
    rw [length_stampBody h hc]
    exact hend
  rw [stamp_snd, List.getElem?_append_left hbody, stampBody,
    List.getElem?_append_right (by rw [Header.length_encode]; exact hfields), Header.length_encode,
    List.getElem?_drop, Nat.add_sub_cancel' hfields, List.getElem?_take_of_lt hend]

theorem stamp_of_intact {h : Header} (hd : Header.decode copy = .ok h)
    (hreserved : copy.getD Header.reservedOffset 0 = 0) (hblock : headerIntact copy = true)
    (hextension : extensionIntact copy = true) : stamp h copy = (h, copy) := by
  have hfields := Header.encode_of_decode hd hreserved
  have hcopy : h.encode ++ copy.drop headerSize = copy := by
    rw [hfields, List.take_append_drop]
  have hsum : headerChecksum ({ h with checksum := 0 }.encode ++ copy.drop headerSize) =
      h.checksum := by
    rw [headerIntact_iff (Nat.le_trans (by decide) hc)] at hblock
    rw [headerChecksum_encode_append, hcopy, hblock, ← Header.word32_encode h, hfields]
    exact (Bytes.word32_take (by decide)).symm
  have hsealed : (stamp h copy).1 = h := by
    show { h with checksum := _ } = h
    rw [hsum]
  have hbody : stampBody h copy = copy.take (copy.length - checksumSize) := by
    have hfront : copy.take headerSize =
        (copy.take (copy.length - checksumSize)).take headerSize := by
      rw [List.take_take, Nat.min_eq_left]
      simp only [headerSize, blockSize, checksumSize] at *
      omega
    rw [stampBody, hsealed, hfields, hfront, List.take_append_drop]
  have hdata : (stampBody h copy).drop blockSize = extensionData copy := by
    rw [hbody, extensionData, Bytes.slice, List.drop_take, Nat.sub_sub, Nat.add_comm checksumSize]
  have htail : Bytes.ofWord32 (Checksum.crc32 (extensionData copy)) =
      copy.drop (copy.length - checksumSize) := by
    have hlast : copy.length - checksumSize + 4 = copy.length :=
      Nat.sub_add_cancel (Nat.le_trans (by decide) hc)
    rw [extensionIntact_iff hc] at hextension
    rw [hextension, Bytes.ofWord32_word32_eq_slice (Nat.le_of_eq hlast), Bytes.slice]
    apply List.take_of_length_le
    rw [List.length_drop]
    omega
  refine Prod.ext hsealed ?_
  rw [stamp_snd, hdata, htail, hbody, List.take_append_drop]

end Stamp

/-- Stamping and decoding undo each other. A stamped copy decodes to the header that stamping gives,
which is the one that was asked for but for its checksum. Both its checksums hold, it is changed in
the header fields and in its last four bytes alone, and stamping it once more with its own header
changes nothing. So it is with every copy that decodes, whose unused header byte is zero and whose
checksums hold. -/
theorem stamping_inverts_decoding {copy : Bytes} (hc : blockSize + checksumSize ≤ copy.length) :
    (∀ h : Header, Header.formatVersion ≤ h.version →
      let out := stamp h copy
      Header.decode out.2 = .ok out.1 ∧ out.1 = { h with checksum := out.1.checksum } ∧
      headerIntact out.2 = true ∧ extensionIntact out.2 = true ∧ out.2.length = copy.length ∧
      (∀ i, headerSize ≤ i → i < copy.length - checksumSize → out.2[i]? = copy[i]?) ∧
      stamp out.1 out.2 = out) ∧
    ∀ h : Header, Header.decode copy = .ok h → copy.getD Header.reservedOffset 0 = 0 →
      headerIntact copy = true → extensionIntact copy = true → stamp h copy = (h, copy) := by
  refine ⟨?_, fun h hd hr hb he => stamp_of_intact hc hd hr hb he⟩
  intro h hv out
  have hdecode := decode_stamp h copy hv
  have hlen : out.2.length = copy.length := length_stamp (Nat.le_trans (by decide) hc)
  have hreserved : out.2.getD Header.reservedOffset 0 = 0 := by
    have hfields : out.2 = out.1.encode ++
        ((copy.take (copy.length - checksumSize)).drop headerSize ++
          Bytes.ofWord32 (Checksum.crc32 ((stampBody h copy).drop blockSize))) :=
      List.append_assoc _ _ _
    rw [hfields, Bytes.getD_append, if_pos (by rw [Header.length_encode]; decide)]
    rfl
  refine ⟨hdecode, rfl, headerIntact_stamp h hc, extensionIntact_stamp h hc, hlen,
    fun i => getElem?_stamp h hc, ?_⟩
  exact stamp_of_intact (by rw [hlen]; exact hc) hdecode hreserved (headerIntact_stamp h hc)
    (extensionIntact_stamp h hc)

/-- A header of a later version, with a checksum of its own, over the shortest copy there is. -/
theorem stamping_inverts_decoding_shortest :
    let h : Header := ⟨7, 1, 3, 0xDEADBEEF, 255, 9⟩
    let copy : Bytes := List.replicate 516 0xA5
    let out := stamp h copy
    copy.length = 516 ∧ Header.decode out.2 = .ok { h with checksum := out.1.checksum } ∧
      out.2[20]? = some 0xA5 ∧ stamp out.1 out.2 = (out.1, out.2) := by
  intro h copy out
  have hlength : copy.length = 516 := List.length_replicate
  have hc : blockSize + checksumSize ≤ copy.length := Nat.le_of_eq hlength.symm
  obtain ⟨hdecode, hsame, hblock, hextension, hlen, hkept, -⟩ :=
    (stamping_inverts_decoding hc).1 h (by decide)
  have hout : blockSize + checksumSize ≤ out.2.length := by
    rw [hlen]
    exact hc
  have hreserved : out.2.getD Header.reservedOffset 0 = 0 := by rfl
  refine ⟨hlength, hdecode.trans (congrArg Except.ok hsame), ?_, ?_⟩
  · rw [hkept 20 (by decide) (by rw [hlength]; decide)]
    rfl
  · exact (stamping_inverts_decoding hout).2 out.1 hdecode hreserved hblock hextension

end Copy

end BootStore

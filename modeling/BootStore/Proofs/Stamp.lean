import BootStore.Copy
import BootStore.Proofs.Placement

/-!
# Accepted copies

What each check of a copy reads (`Copy.validate_append_drop`), and what stamping gives: a copy that
is accepted whether or not the header checksum counts (`Copy.validate_stamp`).
-/
namespace BootStore

theorem Bytes.word32_append {a : Bytes} {offset : Nat} (h : offset + 4 ≤ a.length) (b : Bytes) :
    word32 (a ++ b) offset = word32 a offset := by
  have hget : ∀ i, i < a.length → (a ++ b).getD i 0 = a.getD i 0 := by
    intro i hi
    rw [List.getD_eq_getElem?_getD, List.getD_eq_getElem?_getD, List.getElem?_append_left hi]
  simp only [word32]
  rw [hget _ (by omega), hget _ (by omega), hget _ (by omega), hget _ (by omega)]

namespace Header

@[simp] theorem word32_encode (h : Header) : Bytes.word32 h.encode 12 = h.checksum :=
  Bytes.word32_ofWord32 h.checksum []

theorem encode_take_checksum (h : Header) (c : UInt32) :
    { h with checksum := c }.encode.take 12 = h.encode.take 12 := rfl

theorem encode_drop_checksum (h : Header) (c : UInt32) :
    { h with checksum := c }.encode.drop 16 = h.encode.drop 16 := rfl

end Header

namespace Copy

theorem headerChecksum_encode_append (h : Header) (c : UInt32) (rest : Bytes) :
    headerChecksum ({ h with checksum := c }.encode ++ rest) =
      headerChecksum (h.encode ++ rest) := by
  have hfront : ∀ g : Header, (g.encode ++ rest).take checksumOffset = g.encode.take 12 := fun g =>
    List.take_append_of_le_length (by simp [headerSize, checksumOffset])
  have hback : ∀ g : Header, ((g.encode ++ rest).take blockSize).drop
      (checksumOffset + checksumSize) = g.encode.drop 16 ++ rest.take (blockSize - headerSize) := by
    intro g
    rw [List.take_append, Header.length_encode, List.take_of_length_le (by simp [headerSize,
      blockSize])]
    exact List.drop_append_of_le_length (by simp [headerSize, checksumOffset, checksumSize])
  rw [headerChecksum, headerChecksum, hfront, hfront, hback, hback, Header.encode_take_checksum,
    Header.encode_drop_checksum]

theorem headerChecksum_congr {a b : Bytes} (h : a.take blockSize = b.take blockSize) :
    headerChecksum a = headerChecksum b := by
  have hfront : ∀ c : Bytes, c.take checksumOffset = (c.take blockSize).take checksumOffset := by
    intro c
    rw [List.take_take, Nat.min_eq_left (by decide)]
  rw [headerChecksum, headerChecksum, hfront a, hfront b, h]

theorem headerSize_le_blockSize : headerSize ≤ blockSize := by decide

/-- The header block alone decides whether a copy belongs to the layout. -/
theorem headerFor_append (l : Layout) {block : Bytes} (h : headerSize ≤ block.length)
    (rest : Bytes) : headerFor l (block ++ rest) = headerFor l block := by
  rw [headerFor, headerFor, Header.decode_append h]

theorem headerFor_eq_ok {l : Layout} {copy : Bytes} {h : Header} (hf : headerFor l copy = .ok h) :
    Header.decode copy = .ok h ∧ h.sectors = l.sectors := by
  unfold headerFor at hf
  split at hf
  · cases hf
  next g hg =>
  split at hf
  next hs =>
    cases hf
    exact ⟨hg, hs⟩
  · cases hf

theorem headerIntact_append {block : Bytes} (h : blockSize ≤ block.length) (rest : Bytes) :
    headerIntact (block ++ rest) = headerIntact block := by
  have hlen : blockSize ≤ (block ++ rest).length := by
    rw [List.length_append]
    omega
  have hsum : headerChecksum (block ++ rest) = headerChecksum block :=
    headerChecksum_congr (List.take_append_of_le_length h)
  have hword : checksumOffset + 4 ≤ block.length := Nat.le_trans (by decide) h
  rw [headerIntact, headerIntact, headerChecksum?, headerChecksum?, if_pos hlen, if_pos h, hsum,
    Bytes.word32_append hword]

theorem extensionIntact_congr {a b : Bytes} (hlen : a.length = b.length)
    (h : a.drop blockSize = b.drop blockSize) : extensionIntact a = extensionIntact b := by
  by_cases hsize : blockSize + checksumSize ≤ b.length
  · have hdata : extensionData a = extensionData b := by
      rw [extensionData, extensionData, Bytes.slice, Bytes.slice, h, hlen]
    have hsum : a.drop (a.length - checksumSize) = b.drop (b.length - checksumSize) := by
      obtain ⟨k, hk⟩ := Nat.le.dest (Nat.le_sub_of_add_le hsize)
      rw [hlen, ← hk, ← List.drop_drop, ← List.drop_drop, h]
    rw [extensionIntact, extensionIntact, hdata, hsum, hlen]
  · rw [extensionIntact, extensionIntact, hlen, decide_eq_false hsize, Bool.false_and,
      Bool.false_and]

theorem validate_eq_ok_iff {l : Layout} {v : Bool} {copy : Bytes} {h : Header} :
    validate l v copy = .ok h ↔ headerFor l copy = .ok h ∧
      (v = true → headerIntact copy = true) ∧ extensionIntact copy = true := by
  unfold validate
  cases headerFor l copy with
  | error rejection => simp
  | ok g => cases v <;> cases headerIntact copy <;> cases extensionIntact copy <;> simp

theorem headerFor_of_validate {l : Layout} {v : Bool} {copy : Bytes} {h : Header}
    (hv : validate l v copy = .ok h) : headerFor l copy = .ok h :=
  (validate_eq_ok_iff.1 hv).1

theorem validate_append_drop {l : Layout} {v : Bool} {block copy : Bytes} {g h : Header}
    (hblock : block.length = blockSize) (hlen : blockSize ≤ copy.length)
    (hcopy : validate l v copy = .ok h) :
    validate l v (block ++ copy.drop blockSize) = .ok g ↔
      headerFor l block = .ok g ∧ (v = true → headerIntact block = true) := by
  have hext : extensionIntact (block ++ copy.drop blockSize) = true := by
    rw [← (validate_eq_ok_iff.1 hcopy).2.2]
    apply extensionIntact_congr
    · rw [List.length_append, List.length_drop, hblock]
      omega
    · exact List.drop_left' hblock
  have hsize := headerSize_le_blockSize
  rw [validate_eq_ok_iff, headerFor_append l (by omega), headerIntact_append (by omega), hext]
  simp

theorem length_variableRegion {l : Layout} {copy : Bytes} (h : copy.length = l.copySize) :
    (variableRegion l copy).length = l.variableSpace := by
  have hend := l.variables_le
  rw [variableRegion, Bytes.length_slice, h]
  omega

section Stamp

variable (h : Header) (copy : Bytes)

def stampBody : Bytes :=
  (stamp h copy).1.encode ++ (copy.take (copy.length - checksumSize)).drop headerSize

theorem stamp_snd : (stamp h copy).2 =
    stampBody h copy ++ Bytes.ofWord32 (Checksum.crc32 ((stampBody h copy).drop blockSize)) := rfl

theorem decode_stamp (hv : Header.formatVersion ≤ h.version) :
    Header.decode (stamp h copy).2 = .ok (stamp h copy).1 := by
  have hsealed : Header.formatVersion ≤ (stamp h copy).1.version := hv
  rw [stamp_snd, stampBody, List.append_assoc]
  exact Header.decode_encode hsealed _

variable {copy} (hc : blockSize + checksumSize ≤ copy.length)
include hc

theorem length_stampBody : (stampBody h copy).length = copy.length - checksumSize := by
  have h20 : headerSize + checksumSize ≤ copy.length := Nat.le_trans (by decide) hc
  rw [stampBody, List.length_append, Header.length_encode, List.length_drop, List.length_take]
  omega

theorem take_stamp : (stamp h copy).2.take blockSize =
    ((stamp h copy).1.encode ++ copy.drop headerSize).take blockSize := by
  have hlen : blockSize ≤ (stampBody h copy).length := by
    rw [length_stampBody h hc]
    omega
  rw [stamp_snd, List.take_append_of_le_length hlen, stampBody, List.take_append, List.take_append,
    List.take_drop, List.take_drop, List.take_take]
  simp only [Header.length_encode, headerSize, blockSize, checksumSize] at hc ⊢
  rw [Nat.min_eq_left (by omega)]

theorem headerIntact_stamp : headerIntact (stamp h copy).2 = true := by
  have hlen : (stamp h copy).2.length = copy.length :=
    length_stamp (Nat.le_trans (by decide) hc)
  have hword : Bytes.word32 (stamp h copy).2 checksumOffset = (stamp h copy).1.checksum := by
    rw [stamp_snd, stampBody, List.append_assoc, Bytes.word32_append (by simp [headerSize,
      checksumOffset])]
    exact Header.word32_encode _
  have hsum : headerChecksum (stamp h copy).2 = (stamp h copy).1.checksum := by
    rw [headerChecksum_congr (take_stamp h hc)]
    exact (headerChecksum_encode_append h _ _).trans (headerChecksum_encode_append h 0 _).symm
  rw [headerIntact, headerChecksum?, if_pos (by rw [hlen]; exact Nat.le_trans (by decide) hc),
    hsum, hword]
  exact beq_self_eq_true _

theorem extensionIntact_stamp : extensionIntact (stamp h copy).2 = true := by
  have hlen : (stamp h copy).2.length = copy.length :=
    length_stamp (Nat.le_trans (by decide) hc)
  have hbody := length_stampBody h hc
  have hdata : extensionData (stamp h copy).2 = (stampBody h copy).drop blockSize := by
    rw [extensionData, hlen, Bytes.slice, stamp_snd, List.drop_append_of_le_length (by omega)]
    apply List.take_left'
    rw [List.length_drop]
    omega
  have htail : (stamp h copy).2.drop ((stamp h copy).2.length - checksumSize) =
      Bytes.ofWord32 (Checksum.crc32 ((stampBody h copy).drop blockSize)) := by
    rw [hlen, stamp_snd]
    exact List.drop_left' hbody
  rw [extensionIntact, hdata, htail, hlen, decide_eq_true hc, Bool.true_and, beq_iff_eq]
  exact (Bytes.word32_ofWord32 _ []).symm

/-- A stamped copy is accepted, with the header that it was stamped with. -/
theorem validate_stamp {l : Layout} (verifyHeader : Bool)
    (hv : Header.formatVersion ≤ h.version) (hs : h.sectors = l.sectors) :
    validate l verifyHeader (stamp h copy).2 = .ok (stamp h copy).1 := by
  have hfor : headerFor l (stamp h copy).2 = .ok (stamp h copy).1 := by
    rw [headerFor, decode_stamp h copy hv]
    exact if_pos hs
  exact validate_eq_ok_iff.2
    ⟨hfor, fun _ => headerIntact_stamp h hc, extensionIntact_stamp h hc⟩

theorem variableRegion_stamp {l : Layout} (hl : copy.length = l.copySize) :
    variableRegion l (stamp h copy).2 = variableRegion l copy := by
  have hbody := length_stampBody h hc
  have hspace : l.variableStart + l.variableSpace = copy.length - checksumSize := by
    rw [← Layout.variableEnd_eq, hl]
    rfl
  have hstart : l.variableStart = (stamp h copy).1.encode.length := rfl
  rw [variableRegion, variableRegion, Bytes.slice, Bytes.slice, List.take_drop, List.take_drop,
    hspace, stamp_snd, List.take_left' hbody, stampBody, hstart, List.drop_left' rfl]
  rfl

end Stamp

end Copy

end BootStore

import BootStore.Bytes
import BootStore.Layout

/-!
# Header

The fields at the start of a copy's header block: magic, format version, flags, failed boots,
checksum, serial, a reserved byte and the number of extension sectors, little-endian throughout.
-/
namespace BootStore

structure Header where
  version : UInt16
  flags : UInt8
  failedBoots : UInt8
  checksum : UInt32
  serial : UInt8
  sectors : UInt16
  deriving DecidableEq, Repr

inductive HeaderDefect where
  | truncated (length : Nat)
  | invalidMagic
  | unsupportedVersion (version : UInt16)
  deriving DecidableEq, Repr

def HeaderDefect.message : HeaderDefect → String
  | .truncated length => s!"header truncated: {length} bytes"
  | .invalidMagic => "invalid magic"
  | .unsupportedVersion version => s!"unsupported version {version.toNat}"

namespace Header

def magic : Bytes := [0x42, 0x4F, 0x4F, 0x54, 0x49, 0x4E, 0x46, 0x4F]

/-- The version written, and the least version read. Later versions only add fields past the
ones read here. -/
def formatVersion : UInt16 := 4

/-- The flag of a boot that was started and not yet marked good. -/
def bootInProgress : UInt8 := 1

/-- The header of a new copy in the current format, not sealed yet. -/
def fresh (flags failedBoots serial : UInt8) (sectors : UInt16) : Header :=
  ⟨formatVersion, flags, failedBoots, 0, serial, sectors⟩

def inProgress (h : Header) : Bool := h.flags &&& bootInProgress != 0

def encode (h : Header) : Bytes :=
  magic ++ Bytes.ofWord16 h.version ++ [h.flags, h.failedBoots] ++ Bytes.ofWord32 h.checksum ++
    [h.serial, 0] ++ Bytes.ofWord16 h.sectors

def decode (bytes : Bytes) : Except HeaderDefect Header :=
  let block := bytes.take headerSize
  let version := Bytes.word16 block 8
  if block.length < headerSize then .error (.truncated block.length)
  else if block.take 8 ≠ magic then .error .invalidMagic
  else if version < formatVersion then .error (.unsupportedVersion version)
  else .ok {
    version
    flags := block.getD 10 0
    failedBoots := block.getD 11 0
    checksum := Bytes.word32 block 12
    serial := block.getD 16 0
    sectors := Bytes.word16 block 18 }

@[simp] theorem length_encode (h : Header) : h.encode.length = headerSize := rfl

theorem decode_take (bytes : Bytes) : decode (bytes.take headerSize) = decode bytes := by
  simp [decode, List.take_take]

theorem decode_append {block : Bytes} (h : headerSize ≤ block.length) (rest : Bytes) :
    decode (block ++ rest) = decode block := by
  rw [← decode_take, List.take_append_of_le_length h, decode_take]

theorem decode_encode {h : Header} (hv : formatVersion ≤ h.version) (rest : Bytes) :
    decode (h.encode ++ rest) = .ok h := by
  have hw : Bytes.word16 h.encode 8 = h.version := Bytes.word16_ofWord16 h.version []
  have hc : Bytes.word32 h.encode 12 = h.checksum := Bytes.word32_ofWord32 h.checksum []
  have hs : Bytes.word16 h.encode 18 = h.sectors := Bytes.word16_ofWord16 h.sectors []
  have ht : h.encode.take headerSize = h.encode := List.take_of_length_le (Nat.le_refl _)
  rw [decode_append (by simp)]
  simp only [decode, ht, hw, hc, hs]
  rw [if_neg (by simp), if_neg (by simp [encode, magic]), if_neg (UInt16.not_lt.2 hv)]
  rfl

end Header

end BootStore

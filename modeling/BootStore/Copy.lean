import BootStore.Checksum
import BootStore.Header

/-!
# Copies

The bytes of one redundant copy: its two checksums, stamping, encoding and validation.
Stamping changes no length (`length_stamp`).
-/
namespace BootStore

inductive Rejection where
  | unreadable (cause : IoError)
  | header (defect : HeaderDefect)
  | extensionSize (found expected : UInt16)
  | headerChecksum
  | extensionChecksum
  deriving DecidableEq, Repr

def Rejection.message : Rejection → String
  | .unreadable cause => s!"read failed: {cause.message}"
  | .header defect => defect.message
  | .extensionSize found expected =>
    s!"extension is {found.toNat} sectors, expected {expected.toNat}"
  | .headerChecksum => "header checksum mismatch"
  | .extensionChecksum => "extension checksum mismatch"

namespace Copy

def checksumOffset : Nat := 12

/-- The checksum of a header block, its own field counted as zero. -/
def headerChecksum (copy : Bytes) : UInt32 :=
  Checksum.crc32 (copy.take checksumOffset ++ Bytes.zeros checksumSize ++
    (copy.take blockSize).drop (checksumOffset + checksumSize))

def headerChecksum? (copy : Bytes) : Option UInt32 :=
  if blockSize ≤ copy.length then some (headerChecksum copy) else none

def headerIntact (copy : Bytes) : Bool :=
  headerChecksum? copy == some (Bytes.word32 copy checksumOffset)

def extensionData (copy : Bytes) : Bytes :=
  Bytes.slice copy blockSize (copy.length - (blockSize + checksumSize))

def extensionIntact (copy : Bytes) : Bool :=
  decide (blockSize + checksumSize ≤ copy.length) &&
    Checksum.crc32 (extensionData copy) == Bytes.word32 (copy.drop (copy.length - checksumSize)) 0

/-- `copy` with the header fields written and both checksums made right, and the header with its
checksum. What the header block holds besides the fields stays and counts towards its checksum. -/
def stamp (h : Header) (copy : Bytes) : Header × Bytes :=
  let sealedHeader := { h with
    checksum := headerChecksum ({ h with checksum := 0 }.encode ++ copy.drop headerSize) }
  let body := sealedHeader.encode ++ (copy.take (copy.length - checksumSize)).drop headerSize
  (sealedHeader, body ++ Bytes.ofWord32 (Checksum.crc32 (body.drop blockSize)))

def encode (l : Layout) (h : Header) (packed : Bytes) : Except StoreError Bytes :=
  if l.variableSpace < packed.length then
    .error (.sizeExceeded (.packed packed.length l.variableSpace))
  else
    .ok (stamp h (Bytes.overwrite (Bytes.zeros l.copySize) l.variableStart packed)).2

/-- The header at the start of a copy, if it says that the copy belongs to the layout. -/
def headerFor (l : Layout) (copy : Bytes) : Except Rejection Header :=
  match Header.decode copy with
  | .error defect => .error (.header defect)
  | .ok h =>
    if h.sectors = l.sectors then .ok h else .error (.extensionSize h.sectors l.sectors)

/-- The header of an acceptable copy. The header block's own checksum counts only if
`verifyHeader` asks for it: without it, damage confined to that block goes unnoticed. -/
def validate (l : Layout) (verifyHeader : Bool) (copy : Bytes) : Except Rejection Header :=
  match headerFor l copy with
  | .error rejection => .error rejection
  | .ok h =>
    if verifyHeader && !headerIntact copy then .error .headerChecksum
    else if !extensionIntact copy then .error .extensionChecksum
    else .ok h

def variableRegion (l : Layout) (copy : Bytes) : Bytes :=
  Bytes.slice copy l.variableStart l.variableSpace

theorem length_stamp {h : Header} {copy : Bytes} (hc : headerSize + checksumSize ≤ copy.length) :
    (stamp h copy).2.length = copy.length := by
  simp only [headerSize, checksumSize] at hc
  simp [stamp, headerSize, checksumSize]
  omega

end Copy

end BootStore

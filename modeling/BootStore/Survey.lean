import BootStore.Copy
import BootStore.Device

/-!
# Surveys

Both copies as a device holds them, each judged on its own, and which of them is current. A copy's
extension is read only if its header block says that it belongs to the layout.
-/
namespace BootStore

structure Sighting where
  /-- The bytes read, with zeros for what was not read. -/
  bytes : Bytes
  verdict : Except Rejection Header

structure Survey where
  a : Sighting
  b : Sighting

namespace Sighting

def header? (s : Sighting) : Option Header := s.verdict.toOption

/-- The header that stands at the front of a copy, accepted or not. -/
def apparentHeader? (s : Sighting) : Option Header := (Header.decode s.bytes).toOption

def ofBlockFailure (l : Layout) (f : ReadFailure) : Sighting :=
  ⟨Bytes.resize (f.arrived.take blockSize) l.copySize, .error (.unreadable f.cause)⟩

def ofForeignBlock (l : Layout) (block : Bytes) (why : Rejection) : Sighting :=
  ⟨Bytes.resize block l.copySize, .error why⟩

def ofExtensionFailure (l : Layout) (block : Bytes) (f : ReadFailure) : Sighting :=
  ⟨Bytes.resize (block ++ f.arrived) l.copySize, .error (.unreadable f.cause)⟩

def ofCopy (l : Layout) (verifyHeader : Bool) (copy : Bytes) : Sighting :=
  ⟨copy, Copy.validate l verifyHeader copy⟩

variable {m : Type → Type} [Monad m] [BlockDevice m]

def take (l : Layout) (verifyHeader : Bool) (s : Slot) : m Sighting := do
  match ← BlockDevice.readRegion (l.offset s) blockSize with
  | .error f => pure (ofBlockFailure l f)
  | .ok block =>
    match Copy.headerFor l block with
    | .error why => pure (ofForeignBlock l block why)
    | .ok _ =>
      match ← BlockDevice.readRegion (l.extensionOffset s) l.extensionSize with
      | .error f => pure (ofExtensionFailure l block f)
      | .ok extension => pure (ofCopy l verifyHeader (block ++ extension))

end Sighting

namespace Survey

def sighting (s : Survey) : Slot → Sighting
  | .a => s.a
  | .b => s.b

def current? (s : Survey) : Option Slot :=
  Slot.newer (s.a.header?.map (·.serial)) (s.b.header?.map (·.serial))

variable {m : Type → Type} [Monad m] [BlockDevice m]

def take (l : Layout) (verifyHeader : Bool) : m Survey := do
  let a ← Sighting.take l verifyHeader .a
  let b ← Sighting.take l verifyHeader .b
  pure ⟨a, b⟩

end Survey

end BootStore

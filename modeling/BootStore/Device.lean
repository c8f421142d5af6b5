import BootStore.Bytes
import BootStore.Error

/-!
# Devices

Positional access to the storage that holds both copies. A region is read whole or not at all, and a
series of writes ends at the first that fails.
-/
namespace BootStore

/-- A region that was not read: why, and the bytes of it that arrived before the failure. -/
structure ReadFailure where
  cause : IoError
  arrived : Bytes := []
  deriving DecidableEq, Repr

structure Write where
  offset : Nat
  data : Bytes
  deriving DecidableEq, Repr

class BlockDevice (m : Type → Type) where
  readRegion (offset length : Nat) : m (Except ReadFailure Bytes)
  /-- What is written is durable when the write returns. -/
  writeRegion (w : Write) : m (Except IoError Unit)

namespace BlockDevice

variable {m : Type → Type} [Monad m] [BlockDevice m]

def writeAll : List Write → m (Except IoError Unit)
  | [] => pure (.ok ())
  | w :: rest => do
    match ← writeRegion w with
    | .error e => pure (.error e)
    | .ok () => writeAll rest

end BlockDevice

end BootStore

import BootStore.Device

/-!
# Hosts

What a store needs of the system it runs on: files and directories by path, advisory locks, and
positional access to open device files. A device file that is open makes the host's monad one of
device accesses.
-/
namespace BootStore

/-- A monad whose effects are those of a host. `Lock` names a lock that is held and `File` a
device file that is open. -/
class Host (m : Type → Type) (Lock File : outParam Type) where
  pathExists (path : String) : m Bool
  makeDirectory (path : String) : m (Except Errno Unit)
  /-- Opens a lock file, creating it if need be, and takes a shared or exclusive lock on it
  without waiting; `none` if another lock stands in the way. -/
  tryLock (path : String) (exclusive : Bool) : m (Except Errno (Option Lock))
  unlock (lock : Lock) : m Unit
  readFront (path : String) (limit : Nat) : m (Except Errno Bytes)
  /-- Writes over the front of an existing file; whether it could be opened for that. -/
  writeFront (path : String) (data : Bytes) : m Bool
  openDevice (path : String) (readOnly : Bool) : m (Except Errno File)
  closeDevice (file : File) : m Unit
  readDevice (file : File) (offset length : Nat) : m (Except ReadFailure Bytes)
  writeDevice (file : File) (w : Write) : m (Except IoError Unit)

instance {m : Type → Type} {Lock File : Type} [Host m Lock File] :
    BlockDevice (ReaderT File m) where
  readRegion offset length := fun file => Host.readDevice file offset length
  writeRegion w := fun file => Host.writeDevice file w

end BootStore

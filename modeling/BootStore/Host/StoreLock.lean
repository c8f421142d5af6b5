import BootStore.Host
import BootStore.Host.Path

/-!
# The store lock

One lock file, in a directory of its own, that every user of the store locks: shared to read,
exclusive to write. Taking it never waits.
-/
namespace BootStore

structure StoreLock (Lock : Type) where
  handle : Lock
  path : String
  exclusive : Bool

namespace StoreLock

def fileName : String := "lockfile"

variable {m : Type → Type} {Lock File : Type} [Monad m] [Host m Lock File]

def acquire (directory : String) (exclusive : Bool) :
    m (Except StoreError (StoreLock Lock)) := do
  let lock : m (Except StoreError (StoreLock Lock)) := do
    let path := Path.join directory fileName
    match ← Host.tryLock path exclusive with
    | .error e => return .error (.io (.os e))
    | .ok none => return .error (.lockContended path)
    | .ok (some handle) => return .ok { handle, path, exclusive }
  match ← Host.makeDirectory directory with
  | .ok () | .error .alreadyExists => lock
  | .error e => return .error (.io (.os e))

def release (l : StoreLock Lock) : m Unit := Host.unlock l.handle

end StoreLock

end BootStore

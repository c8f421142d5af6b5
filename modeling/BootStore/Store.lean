import BootStore.Host.StoreLock
import BootStore.Host.WriteSwitch
import BootStore.Session.Opening

/-!
# Stores on a host

A session together with what it needs of the host: the lock, for a writer the write guard, and the
device file. They are taken in that order and given back in the opposite one, on every path.
-/
namespace BootStore

structure Store (m : Type → Type) (Lock File : Type) where
  session : Session
  file : File
  lock : StoreLock Lock
  /-- `none` unless the store may be written. -/
  guard : Option (WriteGuard m)

namespace Store

section

variable {m : Type → Type} [Monad m]

def releaseGuard : Option (WriteGuard m) → m Unit
  | none => return ()
  | some g => g.release

def dropGuard : Option (WriteGuard m) → m Unit
  | none => return ()
  | some g => g.drop

theorem releaseGuard_eq [LawfulMonad m] (guard : Option (WriteGuard m)) :
    releaseGuard guard = dropGuard guard := by
  cases guard with
  | none => rfl
  | some g => exact g.release_eq_drop

end

variable {m : Type → Type} {Lock File : Type} [Monad m] [Host m Lock File]

def locate? : List String → m (Option String)
  | [] => return none
  | path :: rest => do
    if ← Host.pathExists path then return some path
    else locate? rest

def locate (candidates : List String) : m (Except StoreError String) := do
  match ← locate? candidates with
  | some path => return .ok path
  | none => return .error (.deviceNotFound candidates)

def beginOn (path : String) (l : Layout) (verifyHeader : Bool) (flags : OpenFlags) :
    m (Except StoreError (File × Session)) := do
  match ← Host.openDevice path flags.readOnly with
  | .error e => return .error (.io (.os e))
  | .ok file =>
    match ← (Session.begin l verifyHeader flags : ReaderT File m _).run file with
    | .ok session => return .ok (file, session)
    | .error e =>
      Host.closeDevice file
      return .error e

/-- Opens the store, using `switch` to make the device writable. A session that may not write
gives its guard back at once; it keeps the lock. -/
def openWith (switch : WriteSwitch m) (settings : Settings) (flags : OpenFlags) :
    m (Except StoreError (Store m Lock File)) := do
  match flags.check with
  | .error e => return .error e
  | .ok () =>
  match settings.layout with
  | .error e => return .error e
  | .ok l =>
  match ← locate settings.devices with
  | .error e => return .error e
  | .ok path =>
  match ← StoreLock.acquire settings.lockDirectory !flags.readOnly with
  | .error e => return .error e
  | .ok lock =>
  let guard ← if flags.readOnly then pure none else some <$> WriteGuard.enable switch path
  match ← beginOn path l settings.verifyHeader flags with
  | .error e =>
    dropGuard guard
    lock.release
    return .error e
  | .ok (file, session) =>
    if session.isReadOnly then
      releaseGuard guard
      return .ok { session, file, lock, guard := none }
    else return .ok { session, file, lock, guard }

def openConfigured (settings : Settings) (flags : OpenFlags) :
    m (Except StoreError (Store m Lock File)) :=
  openWith settings.writeProtection.switch settings flags

def update {α : Type} (s : Store m Lock File)
    (action : Session → ReaderT File m (α × Session)) : m (α × Store m Lock File) := do
  let (a, session) ← (action s.session).run s.file
  return (a, { s with session })

/-- Closes the device, protects it again and releases the lock. -/
def close (s : Store m Lock File) : m Unit := do
  Host.closeDevice s.file
  dropGuard s.guard
  s.lock.release

end Store

end BootStore

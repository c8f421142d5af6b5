import BootStore.Command.Run

/-!
# The command line

The host that the program runs on, and the program. Everything that is decided is decided in
`Command.respond`; here files are opened, locked, read and written.
-/
namespace BootStore

def Errno.ofError : IO.Error → Errno
  | .noFileOrDirectory .. => .noEntry
  | .alreadyExists .. => .alreadyExists
  | .permissionDenied .. => .permissionDenied
  | .inappropriateType _ 20 _ => .notDirectory
  | .inappropriateType _ 21 _ => .isDirectory
  | .resourceExhausted _ 28 _ => .noSpace
  | e => .other 5 (toString e)

def attempt {α : Type} (action : IO α) : IO (Except Errno α) := do
  try return .ok (← action)
  catch e => return .error (.ofError e)

/-- Reads on, with `reader`, until `length` bytes are there or nothing more comes. -/
partial def readUpTo (reader : USize → IO ByteArray) (length : Nat) (done : ByteArray) :
    IO ByteArray := do
  if length ≤ done.size then return done
  let more ← reader (length - done.size).toUSize
  if more.isEmpty then return done
  readUpTo reader length (done ++ more)

/-- Moves to `offset` from the start of a file; gives the distance that the file falls short. -/
partial def seekTo (h : IO.FS.Handle) (offset : Nat) : IO Nat := do
  h.rewind
  let rec skip (left : Nat) : IO Nat := do
    if left = 0 then return 0
    let passed ← h.read (min left 65536).toUSize
    if passed.isEmpty then return left
    skip (left - passed.size)
  skip offset

instance : Host IO IO.FS.Handle IO.FS.Handle where
  pathExists path := return (← attempt (IO.FS.realPath path)).toBool
  makeDirectory path := attempt (IO.FS.createDir path)
  tryLock path exclusive := attempt do
    let h ← IO.FS.Handle.mk path .append
    return if ← h.tryLock exclusive then some h else none
  unlock h := h.unlock
  readFront path limit := attempt do
    return (← readUpTo (← IO.FS.Handle.mk path .read).read limit .empty).data.toList
  writeFront path data := do
    match ← attempt (IO.FS.Handle.mk path .readWrite) with
    | .error _ => return false
    | .ok h =>
      let _ ← attempt do
        h.write data.toByteArray
        h.flush
      return true
  openDevice path readOnly :=
    attempt (IO.FS.Handle.mk path (if readOnly then .read else .readWrite))
  closeDevice _ := return ()
  readDevice h offset length := do
    let result ← attempt do
      let short ← seekTo h offset
      return (short, ← readUpTo h.read length .empty)
    match result with
    | .error e => return .error { cause := .os e }
    | .ok (short, data) =>
      if short = 0 && data.size = length then return .ok data.data.toList
      else return .error { cause := .shortRead, arrived := data.data.toList }
  writeDevice h w := do
    let result ← attempt do
      let short ← seekTo h w.offset
      h.write (Bytes.zeros short ++ w.data).toByteArray
      h.flush
    return result.mapError .os

instance : StandardInput IO where
  readInput limit := return (← readUpTo (← IO.getStdin).read limit .empty).data.toList

end BootStore

def main (arguments : List String) : IO UInt32 := do
  let outcome : BootStore.Outcome ← BootStore.Command.respond arguments
  IO.print outcome.stdout
  IO.eprint outcome.stderr
  return outcome.code.toUInt32

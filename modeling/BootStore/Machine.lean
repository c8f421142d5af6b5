import BootStore.Machine.UsualFiles
import BootStore.Store

/-!
# Machines

A host in memory: a file tree, the locks that are held, what waits on standard input, and a log.
Locks belong to lock files, not to their paths.
-/
namespace BootStore

structure HeldLock where
  token : Nat
  file : Nat
  exclusive : Bool
  deriving DecidableEq, Repr

structure DeviceFile where
  file : Nat
  writable : Bool
  deriving DecidableEq, Repr

inductive Event where
  | locked (lock : HeldLock)
  | unlocked (token : Nat)
  /-- A write-protect switch was asked to change. -/
  | requested (device : String) (writable : Bool)
  | opened (path : String) (device : DeviceFile)
  | written (device : DeviceFile) (offset length : Nat)
  | closed (device : DeviceFile)
  deriving DecidableEq, Repr

structure Machine where
  files : FileTree
  held : List HeldLock := []
  nextToken : Nat := 0
  input : Bytes := []
  log : List Event := []
  deriving DecidableEq, Repr

namespace Machine

def fileOffsetBound : Nat := UInt64.size / 2

def compatible (held : List HeldLock) (file : Nat) (exclusive : Bool) : Bool :=
  held.all fun l => l.file != file || !(exclusive || l.exclusive)

def note (m : Machine) (e : Event) : Machine := { m with log := m.log ++ [e] }

def tryLock (m : Machine) (path : String) (exclusive : Bool) :
    Except Errno (Option Nat) × Machine :=
  match m.files.openOrCreate path with
  | .error e => (.error e, m)
  | .ok (file, _, files) =>
    let m := { m with files }
    if compatible m.held file exclusive then
      let lock := ⟨m.nextToken, file, exclusive⟩
      (.ok (some lock.token),
        { m with held := m.held ++ [lock], nextToken := m.nextToken + 1 }.note (.locked lock))
    else (.ok none, m)

def unlock (m : Machine) (token : Nat) : Machine :=
  { m with held := m.held.filter (·.token != token) }.note (.unlocked token)

def openDevice (m : Machine) (path : String) (readOnly : Bool) :
    Except Errno DeviceFile × Machine :=
  match m.files.node path with
  | .error e => (.error e, m)
  | .ok (file, node) =>
    let device := ⟨file, !readOnly⟩
    let refusal? : Option Errno :=
      match node with
      | .directory _ => if readOnly then none else some .isDirectory
      | .special f => f.refusal? (!readOnly)
      | _ => none
    match refusal? with
    | some e => (.error e, m)
    | none => (.ok device, m.note (.opened path device))

def hasOffsets (m : Machine) (d : DeviceFile) : Bool :=
  match m.files.nodes[d.file]? with
  | some (.special f) => f.hasOffsets
  | _ => true

def isQueue (m : Machine) (d : DeviceFile) : Bool :=
  match m.files.nodes[d.file]? with
  | some (.special f) => f.isQueue
  | _ => false

def wholeRegion (found : Bytes) (length : Nat) : Except ReadFailure Bytes :=
  if found.length < length then .error { cause := .shortRead, arrived := found } else .ok found

/-- Reading a region of a file gives what there is of it before the failure. -/
def readDevice (m : Machine) (d : DeviceFile) (offset length : Nat) : Except ReadFailure Bytes :=
  if length = 0 then .ok []
  else if fileOffsetBound ≤ offset then .error { cause := .os .invalidInput }
  else if !m.hasOffsets d then .error { cause := .os .illegalSeek }
  else if fileOffsetBound ≤ offset + length then .error { cause := .os .invalidInput }
  else
    match m.files.nodes[d.file]? with
    | some (.file contents) => wholeRegion (contents.slice offset length) length
    | some (.special f) => wholeRegion (f.slice offset length) length
    | some (.directory _) => .error { cause := .os .isDirectory }
    | _ => .error { cause := .os .badDescriptor }

def writeDevice (m : Machine) (d : DeviceFile) (w : Write) : Except IoError Unit × Machine :=
  if w.data.isEmpty then (.ok (), m)
  else if fileOffsetBound ≤ w.offset then (.error (.os .invalidInput), m)
  else if m.isQueue d then (.error (.os .illegalSeek), m)
  else if !d.writable then (.error (.os .badDescriptor), m)
  else if fileOffsetBound ≤ w.offset + w.data.length then (.error (.os .invalidInput), m)
  else
    let after := m.note (.written d w.offset w.data.length)
    match m.files.nodes[d.file]? with
    | some (.file contents) =>
      (.ok (), { after with
        files := m.files.setContents d.file (contents.overwrite w.offset w.data) })
    | some (.special f) =>
      match f.objection? w.data with
      | some e => (.error (.os e), after)
      | none => (.ok (), after)
    | _ => (.error (.os .badDescriptor), m)

def takeInput (m : Machine) (limit : Nat) : Bytes × Machine :=
  (m.input.take limit, { m with input := m.input.drop limit })

/-- The first bytes of a file. Standard input may be opened by a path too. -/
def readFront (m : Machine) (path : String) (limit : Nat) : Except Errno Bytes × Machine :=
  match m.files.node path with
  | .ok (_, .special { reading := .input, absence? := none, .. }) =>
    let (taken, m) := m.takeInput limit
    (.ok taken, m)
  | _ => (m.files.front path limit, m)

instance : Host (StateM Machine) Nat DeviceFile where
  pathExists path := fun m => ((m.files.node path).toBool, m)
  makeDirectory path := fun m =>
    match m.files.makeDirectory path with
    | .error e => (.error e, m)
    | .ok files => (.ok (), { m with files })
  tryLock path exclusive := fun m => m.tryLock path exclusive
  unlock token := fun m => ((), m.unlock token)
  readFront path limit := fun m => m.readFront path limit
  writeFront path data := fun m =>
    match m.files.writeFront path data with
    | none => (false, m)
    | some files => (true, { m with files })
  openDevice path readOnly := fun m => m.openDevice path readOnly
  closeDevice device := fun m => ((), m.note (.closed device))
  readDevice device offset length := fun m => (m.readDevice device offset length, m)
  writeDevice device w := fun m => m.writeDevice device w

def observed (switch : WriteSwitch (StateM Machine)) : WriteSwitch (StateM Machine) where
  setWritable device writable := fun m =>
    switch.setWritable device writable (m.note (.requested device writable))

def answering (answer : Bool) : WriteSwitch (StateM Machine) := ⟨fun _ _ => pure answer⟩

def requests (m : Machine) : List (String × Bool) :=
  m.log.filterMap fun
    | .requested device writable => some (device, writable)
    | _ => none

/-- A machine with the usual files, started in an empty working directory. -/
def fresh : Machine where
  files := .usual

end Machine

end BootStore

import BootStore.Error
import BootStore.Host.Path
import BootStore.Machine.Contents
import BootStore.Machine.SpecialFile

/-!
# File trees

Directories, files, symbolic links and special files. Nodes are numbered and never renumbered, so an
open file stays what it is when its name goes.
-/
namespace BootStore

/-- Who gives the names in a directory. What the system has named keeps its name. -/
inductive Naming where
  | free
  /-- The system. A name that it has not given is not even there to be given. -/
  | listed
  /-- The system, and others are not permitted to. -/
  | guarded
  deriving DecidableEq, Repr

structure Directory where
  parent : Nat
  entries : List (String × Nat) := []
  naming : Naming := .free
  deriving DecidableEq, Repr

inductive Node where
  | directory (d : Directory)
  | file (contents : Contents)
  | link (target : String)
  /-- A link of the system's that leads to a node and not along a path. -/
  | jump (node : Nat)
  | special (file : SpecialFile)
  deriving DecidableEq, Repr

structure FileTree where
  /-- Node 0 is the root directory. -/
  nodes : List Node
  /-- The directory that relative paths start from. -/
  working : Nat
  deriving DecidableEq, Repr

/-- Where a path leads: a name in a directory, and the node of that name if there is one. -/
structure Place where
  directory : Nat
  name : String
  node : Option Nat
  deriving DecidableEq, Repr

namespace FileTree

def maxLinks : Nat := 40

def maxName : Nat := 255

def pathBound : Nat := 4096

/-- The names along a path, with an empty one at the end if it ends in a slash. -/
def names (path : String) : List String :=
  (Path.parts path).filter (!·.isEmpty) ++ if Path.endsInSlash path then [""] else []

def start (path : String) (directory : Nat) : Nat :=
  if Path.isAbsolute path then 0 else directory

inductive Purpose where
  /-- What is there. A link leads on, and a slash after the name asks for a directory. -/
  | reach
  /-- The entry of that name. A link is itself, and a slash after the name is passed over. -/
  | entry
  /-- A file, there or not. A link leads on, and no slash may stand after the name. -/
  | fill
  deriving DecidableEq, Repr

def Purpose.isLast (p : Purpose) (rest : List String) : Bool :=
  rest.isEmpty || (p == .entry && rest == [""])

/-- Walks along names from a directory. The last name may be that of no node, where one could be
added. -/
def walk (t : FileTree) (p : Purpose) (links here : Nat) : List String → Except Errno Place
  | [] => .ok ⟨here, ".", some here⟩
  | name :: rest =>
    match t.nodes[here]? with
    | some (.directory d) =>
      if Path.isIdle name then walk t p links here rest
      else if name = ".." then walk t p links d.parent rest
      else if p = .fill ∧ rest = [""] then .error .isDirectory
      else
        match d.entries.lookup name with
        | none =>
          if d.naming = .listed then .error .noEntry
          else if d.naming = .free ∧ maxName < name.utf8ByteSize then .error .nameTooLong
          else if p.isLast rest then .ok ⟨here, name, none⟩
          else .error .noEntry
        | some next =>
          match t.nodes[next]? with
          | some (.link target) =>
            if p = .entry ∧ p.isLast rest then .ok ⟨here, name, some next⟩
            else
              match links with
              | 0 => .error .linkLoop
              | links + 1 => walk t p links (start target here) (names target ++ rest)
          | some (.jump target) =>
            if p = .entry ∧ p.isLast rest then .ok ⟨here, name, some next⟩
            else
              match links with
              | 0 => .error .linkLoop
              | links + 1 =>
                if p.isLast rest then .ok ⟨here, name, some target⟩
                else walk t p links target rest
          | _ =>
            if p.isLast rest then .ok ⟨here, name, some next⟩
            else walk t p links next rest
    | some _ => .error .notDirectory
    | none => .error .noEntry
  termination_by names => (links, names.length)

def holdsZero (path : String) : Bool := path.toList.contains '\x00'

def pathDefect (path : String) : Option Errno :=
  if path.isEmpty then some .noEntry
  else if holdsZero path then some .invalidInput
  else if pathBound ≤ path.utf8ByteSize then some .nameTooLong
  else none

def find (t : FileTree) (p : Purpose) (path : String) : Except Errno Place :=
  match pathDefect path with
  | some e => .error e
  | none => walk t p maxLinks (start path t.working) (names path)

def node (t : FileTree) (path : String) : Except Errno (Nat × Node) :=
  match t.find .reach path with
  | .error e => .error e
  | .ok place =>
    match place.node with
    | none => .error .noEntry
    | some n =>
      match t.nodes[n]? with
      | some node => .ok (n, node)
      | none => .error .noEntry

def add (t : FileTree) (place : Place) (node : Node) : Except Errno FileTree :=
  match t.nodes[place.directory]? with
  | some (.directory d) =>
    if d.naming ≠ .free then .error .permissionDenied
    else
      let entries := d.entries ++ [(place.name, t.nodes.length)]
      .ok { t with
        nodes := t.nodes.set place.directory (.directory { d with entries }) ++ [node] }
  | _ => .error .notDirectory

def setContents (t : FileTree) (n : Nat) (contents : Contents) : FileTree :=
  { t with nodes := t.nodes.set n (.file contents) }

def makeDirectory (t : FileTree) (path : String) : Except Errno FileTree :=
  match t.find .entry path with
  | .error e => .error e
  | .ok place =>
    match place.node with
    | some _ => .error .alreadyExists
    | none => t.add place (.directory { parent := place.directory })

def isDirectory (t : FileTree) (path : String) : Bool :=
  match t.node path with
  | .ok (_, .directory _) => true
  | _ => false

/-- Makes the first of some directories, each of which lies in the next, and those of the others
that are missing for it. Those stay when the first cannot be made after all. -/
def makeNested (t : FileTree) : List String → Except Errno Unit × FileTree
  | [] => (.ok (), t)
  | path :: above =>
    let settle (t : FileTree) (e : Errno) : Except Errno Unit × FileTree :=
      (if t.isDirectory path then .ok () else .error e, t)
    match t.makeDirectory path with
    | .ok made => (.ok (), made)
    | .error .noEntry =>
      match makeNested t above with
      | (.error e, t) => (.error e, t)
      | (.ok (), t) =>
        match t.makeDirectory path with
        | .ok made => (.ok (), made)
        | .error e => settle t e
    | .error e => settle t e

/-- A path and those of the directories on the way to it, from the last to the first. Idle parts
of a path lead to no directory of their own. -/
def leading (path : String) : List String :=
  let names := (Path.parts path).filter (!Path.isIdle ·)
  let root := if Path.isAbsolute path then "/" else ""
  if path.isEmpty then []
  else
    path :: (List.range (names.length - 1)).reverse.map fun n =>
      root ++ "/".intercalate (names.take (n + 1))

def makeDirectories (t : FileTree) (path : String) : Except Errno Unit × FileTree :=
  t.makeNested (leading path)

def openOrCreate (t : FileTree) (path : String) : Except Errno (Nat × Node × FileTree) :=
  match t.find .fill path with
  | .error e => .error e
  | .ok place =>
    match place.node with
    | none => (t.add place (.file {})).map (t.nodes.length, .file {}, ·)
    | some n =>
      match t.nodes[n]? with
      | none => .error .noEntry
      | some (.directory _) => .error .isDirectory
      | some (.special f) =>
        match f.refusal? true with
        | some e => .error e
        | none => .ok (n, .special f, t)
      | some node => .ok (n, node, t)

def replaceFile (t : FileTree) (path : String) (bytes : Bytes) : Except Errno FileTree :=
  match t.openOrCreate path with
  | .error e => .error e
  | .ok (n, .file _, made) => .ok (made.setContents n (.ofBytes bytes))
  | .ok (_, .special f, made) =>
    match f.objection? bytes with
    | some e => .error e
    | none => .ok made
  | .ok (_, _, made) => .ok made

/-- Makes a link. Zero bytes are looked for in both texts before all else. -/
def makeLink (t : FileTree) (path target : String) : Except Errno FileTree :=
  if holdsZero path then .error .invalidInput
  else
    match pathDefect target with
    | some e => .error e
    | none =>
      match t.find .entry path with
      | .error e => .error e
      | .ok place =>
        match place.node with
        | some _ => .error .alreadyExists
        | none =>
          if Path.endsInSlash path then .error .noEntry else t.add place (.link target)

/-- Takes a file's name away; the file stays for those who have it open. -/
def removeFile (t : FileTree) (path : String) : Except Errno FileTree :=
  match t.find .entry path with
  | .error e => .error e
  | .ok place =>
    match place.node.bind (t.nodes[·]?), t.nodes[place.directory]? with
    | none, _ => .error .noEntry
    | some (.directory _), _ => .error .isDirectory
    | some _, some (.directory d) =>
      if Path.endsInSlash path then .error .notDirectory
      else if d.naming ≠ .free then .error .permissionDenied
      else
        .ok { t with
          nodes := t.nodes.set place.directory
            (.directory { d with entries := d.entries.filter (·.1 != place.name) }) }
    | some _, _ => .error .notDirectory

def front (t : FileTree) (path : String) (limit : Nat) : Except Errno Bytes :=
  match t.node path with
  | .error e => .error e
  | .ok (_, .file contents) => .ok (contents.slice 0 limit)
  | .ok (_, .directory _) => .error .isDirectory
  | .ok (_, .special f) =>
    match f.refusal? false with
    | some e => .error e
    | none => .ok (f.slice 0 limit)
  | .ok _ => .error .linkLoop

def contents (t : FileTree) (path : String) : Except Errno Bytes :=
  match t.node path with
  | .ok (_, .file contents) => .ok contents.toBytes
  | .ok (_, .special { reading := .bytes b, absence? := none, .. }) => .ok b
  | _ => t.front path 0

/-- Writes over the front of an existing file. A write that fails changes nothing; what counts is
whether the file could be opened. -/
def writeFront (t : FileTree) (path : String) (data : Bytes) : Option FileTree :=
  match t.node path with
  | .ok (n, .file contents) => some (t.setContents n (contents.overwrite 0 data))
  | .ok (_, .special f) => if (f.refusal? true).isSome then none else some t
  | _ => none

end FileTree

end BootStore

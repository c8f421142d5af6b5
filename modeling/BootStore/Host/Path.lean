/-!
# Paths

Paths as texts whose parts are divided by slashes.
-/
namespace BootStore.Path

def splitParts : List Char → List (List Char)
  | [] => [[]]
  | c :: rest =>
    if c = '/' then [] :: splitParts rest
    else
      match splitParts rest with
      | [] => [[c]]
      | part :: parts => (c :: part) :: parts

def parts (path : String) : List String := (splitParts path.toList).map String.ofList

def isAbsolute (path : String) : Bool := path.toList.head? == some '/'

def endsInSlash (path : String) : Bool := path.toList.getLast? == some '/'

def join (directory path : String) : String :=
  if isAbsolute path || directory.isEmpty then path
  else if endsInSlash directory then directory ++ path
  else directory ++ "/" ++ path

def isIdle (part : String) : Bool := part.isEmpty || part == "."

/-- The path of a device within `/dev`, as it is spelled but for idle parts at its two ends. -/
def withinDev? (path : String) : Option String :=
  match parts path with
  | "" :: rest =>
    match rest.dropWhile isIdle with
    | "dev" :: device =>
      some ("/".intercalate ((device.dropWhile isIdle).reverse.dropWhile isIdle).reverse)
    | _ => none
  | _ => none

end BootStore.Path

import BootStore.Error
import BootStore.Layout
import BootStore.Text.Utf8

/-!
# Variables

One boot variable, the rules for names and values, and the bytes it is packed into: the name and the
value, each with a zero byte after it.
-/
namespace BootStore

structure Variable where
  name : String
  value : String
  deriving DecidableEq, Repr

namespace Variable

def isNameStart (c : Char) : Bool := c == '_' || c.isAlpha

def isNameRest (c : Char) : Bool := c == '_' || c.isAlphanum

/-- Whether a name has the form `[A-Za-z_][A-Za-z0-9_]*`. -/
def isName (name : String) : Bool :=
  match name.toList with
  | [] => false
  | c :: rest => isNameStart c && rest.all isNameRest

def isPrintable (c : Char) : Bool := ' ' ≤ c && c ≤ '~'

def checkName (name : String) : Except StoreError Unit :=
  if isName name then .ok () else .error (.invalidArgument (.name name))

/-- Every character before the first that is not printable takes one byte, so their number is its
byte offset. -/
def checkValue (value : String) : Except StoreError Unit :=
  match value.toList.findIdx? (!isPrintable ·) with
  | none => .ok ()
  | some offset => .error (.invalidArgument (.value offset))

def maxNameLength : Nat := blockSize - 1

def packedSize (v : Variable) : Nat := v.name.utf8ByteSize + v.value.utf8ByteSize + 2

def encode (v : Variable) : Bytes := Utf8.encode v.name ++ 0 :: (Utf8.encode v.value ++ [0])

@[simp] theorem length_encode (v : Variable) : v.encode.length = v.packedSize := by
  simp only [encode, packedSize, List.length_append, List.length_cons, List.length_nil,
    Utf8.length_encode]
  omega

end Variable

end BootStore

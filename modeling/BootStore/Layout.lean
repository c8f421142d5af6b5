import BootStore.Error

/-!
# Layout

Where the two copies lie on the device, and how each is divided: a header block that begins with the
header fields, then an extension of whole sectors that ends in its own checksum. The variables fill
what is between.
-/
namespace BootStore

inductive Slot where
  | a
  | b
  deriving DecidableEq, Repr

namespace Slot

def other : Slot → Slot
  | a => b
  | b => a

def index : Slot → Nat
  | a => 0
  | b => 1

def name : Slot → String
  | a => "A"
  | b => "B"

@[simp] theorem other_other (s : Slot) : s.other.other = s := by cases s <;> rfl

@[simp] theorem other_ne (s : Slot) : s.other ≠ s := by cases s <;> decide

theorem eq_or_eq_other (s t : Slot) : s = t ∨ s = t.other := by
  cases s <;> cases t <;> decide

/-- The slot of the newer copy, given the serial of each copy that is there. Serials count up by
one and wrap, so 0 is newer than 255; otherwise the larger is newer, and copy A breaks a tie. -/
def newer : (a b : Option UInt8) → Option Slot
  | none, none => none
  | some _, none => some a
  | none, some _ => some b
  | some m, some n =>
    if m = 255 ∧ n = 0 then some b
    else if n = 255 ∧ m = 0 then some a
    else if m < n then some b
    else some a

end Slot

def blockSize : Nat := 512

def sectorSize : Nat := 512

def headerSize : Nat := 20

def checksumSize : Nat := 4

def maxSectors : Nat := 1023

def offsetLimit : Nat := UInt64.size

structure Layout where
  sectors : UInt16
  offsetA : Nat
  offsetB : Nat
  deriving DecidableEq, Repr

namespace Layout

def extensionSize (l : Layout) : Nat := l.sectors.toNat * sectorSize

def copySize (l : Layout) : Nat := blockSize + l.extensionSize

/-- The layout with copy A at `offsetA` and copy B at `offsetB` or, without one, directly after
copy A, but no higher than the last offset. -/
def place (sectors : UInt16) (offsetA : UInt64) (offsetB : Option UInt64) : Layout where
  sectors := sectors
  offsetA := offsetA.toNat
  offsetB :=
    match offsetB with
    | some offset => offset.toNat
    | none => min (offsetA.toNat + (blockSize + sectors.toNat * sectorSize)) (offsetLimit - 1)

def offset (l : Layout) : Slot → Nat
  | .a => l.offsetA
  | .b => l.offsetB

def extensionOffset (l : Layout) (s : Slot) : Nat := l.offset s + blockSize

def extensionOffset? (l : Layout) (s : Slot) : Option Nat :=
  if l.extensionOffset s < offsetLimit then some (l.extensionOffset s) else none

def variableStart (_ : Layout) : Nat := headerSize

def variableEnd (l : Layout) : Nat := l.copySize - checksumSize

def variableSpace (l : Layout) : Nat := l.copySize - (headerSize + checksumSize)

/-- The most that the variables may take in all. It leaves room for the shortest name, both
terminators and the end mark. -/
def variableLimit (l : Layout) : Nat := l.variableSpace - 4

theorem variableEnd_eq (l : Layout) : l.variableEnd = l.variableStart + l.variableSpace := by
  simp only [variableEnd, variableStart, variableSpace, copySize, blockSize, headerSize,
    checksumSize]
  omega

theorem variableLimit_lt (l : Layout) : l.variableLimit < l.variableSpace := by
  simp only [variableLimit, variableSpace, copySize, blockSize, headerSize, checksumSize]
  omega

end Layout

end BootStore

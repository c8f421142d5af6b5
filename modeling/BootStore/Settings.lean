import BootStore.Layout

/-!
# Settings

What a store is opened with, its defaults, and the check that turns the settings into a layout:
`Settings.layout` accepts the geometries whose two copies fit below the offset bound and do not
overlap.
-/
namespace BootStore

inductive WriteProtection where
  /-- The kernel's switch under this directory of block devices. -/
  | sysfs (root : String)
  | disabled
  deriving DecidableEq, Repr

structure Settings where
  /-- Candidate devices; the first that exists is used. -/
  devices : List String := ["/dev/mmcblk0boot1"]
  offsetA : UInt64 := 0
  /-- `none` puts copy B directly after copy A. -/
  offsetB : Option UInt64 := none
  sectors : UInt16 := 1023
  /-- Whether a copy also has to pass the checksum of its header block. -/
  verifyHeader : Bool := false
  lockDirectory : String := "/run/rk-bootinfo"
  writeProtection : WriteProtection := .sysfs "/sys/block"
  deriving DecidableEq, Repr

/-- The layout that the settings describe, if it is usable: a sector count in range, both copies
below the offset bound, and no byte in both. -/
def Settings.layout (s : Settings) : Except StoreError Layout :=
  if s.sectors = 0 ∨ maxSectors < s.sectors.toNat then
    .error (.invalidArgument (.sectorCount s.sectors.toNat maxSectors))
  else
    let l := Layout.place s.sectors s.offsetA s.offsetB
    let size := l.copySize
    if offsetLimit ≤ l.offsetA + size ∨ offsetLimit ≤ l.offsetB + size then
      .error (.invalidArgument (.offsetRange l.offsetA l.offsetB size))
    else if l.offsetA < l.offsetB + size ∧ l.offsetB < l.offsetA + size then
      .error (.invalidArgument (.offsetOverlap l.offsetA l.offsetB size))
    else .ok l

end BootStore

import BootStore.Bytes

/-!
# CRC-32

The cyclic redundancy check that guards both parts of a copy: the reflected polynomial
`0xEDB88320`, an all-ones start and a final complement. `crc32_append` splits the check of a
string at any point.
-/
namespace BootStore.Checksum

def shiftBit (r : UInt32) : UInt32 :=
  if r &&& 1 = 0 then r >>> 1 else (r >>> 1) ^^^ 0xEDB88320

def shiftBits : Nat → UInt32 → UInt32
  | 0, r => r
  | n + 1, r => shiftBits n (shiftBit r)

def feed (r : UInt32) (b : UInt8) : UInt32 := shiftBits 8 (r ^^^ b.toUInt32)

def run (r : UInt32) (data : Bytes) : UInt32 := data.foldl feed r

def crc32 (data : Bytes) : UInt32 := ~~~ run 0xFFFFFFFF data

theorem run_append (r : UInt32) (a b : Bytes) : run r (a ++ b) = run (run r a) b :=
  List.foldl_append

theorem crc32_append (a b : Bytes) : crc32 (a ++ b) = ~~~ run (run 0xFFFFFFFF a) b := by
  rw [crc32, run_append]

end BootStore.Checksum

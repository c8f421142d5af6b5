import BootStore.Device

/-!
# Memory devices

A device held in memory that grows as it is written, up to a limit, with a log of its calls. A plan
tells which of them fail, and what arrives of a read that does.
-/
namespace BootStore

/-- Which calls fail, by their number since the plan was set. -/
structure FaultPlan where
  readFails : Nat → Bool := fun _ => false
  /-- How many bytes have arrived when the read fails. -/
  readBrings : Nat → Nat := fun _ => 0
  /-- `some n`: the write fails when it has stored its first `n` bytes. -/
  writeTears : Nat → Option Nat := fun _ => none

inductive WriteOutcome where
  | stored
  | torn (length : Nat)
  /-- The device could not grow to hold it, and nothing was stored. -/
  | refused
  deriving DecidableEq, Repr

inductive Access where
  | read (offset length : Nat) (succeeded : Bool)
  | write (w : Write) (outcome : WriteOutcome)
  deriving DecidableEq, Repr

structure Memory where
  contents : Bytes := []
  /-- The size beyond which the device does not grow. -/
  limit : Nat := 8 * 1024 * 1024
  plan : FaultPlan := {}
  /-- Whether a read that reaches beyond the end brings what lies before it, as a file's does. -/
  partialReads : Bool := false
  /-- Reads and writes since the plan was set. -/
  reads : Nat := 0
  writes : Nat := 0
  log : List Access := []

namespace Memory

def withPlan (d : Memory) (plan : FaultPlan) : Memory := { d with plan, reads := 0, writes := 0 }

def read (d : Memory) (offset length : Nat) : Except ReadFailure Bytes × Memory :=
  let after (ok : Bool) : Memory :=
    { d with reads := d.reads + 1, log := d.log ++ [.read offset length ok] }
  let region := Bytes.slice d.contents offset length
  if d.plan.readFails d.reads then
    (.error ⟨.readFault, region.take (d.plan.readBrings d.reads)⟩, after false)
  else if d.contents.length < offset + length then
    (.error ⟨.shortRead, if d.partialReads then region else []⟩, after false)
  else (.ok region, after true)

/-- The contents after the first `n` bytes of a write. Without any, nothing changes. -/
def storing (contents : Bytes) (w : Write) (n : Nat) : Bytes :=
  if n = 0 then contents else Bytes.overwrite contents w.offset (w.data.take n)

def write (d : Memory) (w : Write) : Except IoError Unit × Memory :=
  let after (contents : Bytes) (outcome : WriteOutcome) : Memory :=
    { d with contents, writes := d.writes + 1, log := d.log ++ [.write w outcome] }
  if d.limit < w.offset + w.data.length then (.error .deviceFull, after d.contents .refused)
  else
    match d.plan.writeTears d.writes with
    | some n => (.error .writeFault, after (storing d.contents w n) (.torn (min n w.data.length)))
    | none => (.ok (), after (Bytes.overwrite d.contents w.offset w.data) .stored)

instance : BlockDevice (StateM Memory) where
  readRegion offset length := fun d => d.read offset length
  writeRegion w := fun d => d.write w

theorem readRegion_apply (d : Memory) (offset length : Nat) :
    (BlockDevice.readRegion offset length : StateM Memory _) d = d.read offset length := rfl

theorem writeRegion_apply (d : Memory) (w : Write) :
    (BlockDevice.writeRegion w : StateM Memory _) d = d.write w := rfl

@[simp] theorem contents_withPlan (d : Memory) (plan : FaultPlan) :
    (d.withPlan plan).contents = d.contents := rfl

@[simp] theorem limit_withPlan (d : Memory) (plan : FaultPlan) :
    (d.withPlan plan).limit = d.limit := rfl

theorem log_write (d : Memory) (w : Write) :
    ∃ outcome, (d.write w).2.log = d.log ++ [.write w outcome] := by
  simp only [write]
  split
  · exact ⟨_, rfl⟩
  · split <;> exact ⟨_, rfl⟩

end Memory

end BootStore

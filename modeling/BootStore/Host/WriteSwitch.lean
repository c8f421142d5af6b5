import BootStore.Host
import BootStore.Host.Path
import BootStore.Settings

/-!
# Write-protect switches

Some devices have a switch, kept by the kernel, that makes them read-only. A guard turns it off
while a writer works and on again afterwards.
-/
namespace BootStore

/-- A switch; setting it says whether it changed. -/
structure WriteSwitch (m : Type → Type) where
  setWritable (device : String) (writable : Bool) : m Bool

namespace WriteSwitch

variable {m : Type → Type} [Monad m]

def absent : WriteSwitch m := ⟨fun _ _ => pure false⟩

def maxNameLength : Nat := 27

variable {Lock File : Type} [Host m Lock File]

def directory? (root device : String) : Option String :=
  match Path.withinDev? device with
  | none => none
  | some name =>
    if name.isEmpty || maxNameLength < name.utf8ByteSize then none
    else some (Path.join root name)

/-- The state of a device as the kernel tells it: `0` first means writable. -/
def isWritable? (directory : String) : m (Option Bool) := do
  match ← Host.readFront (Path.join directory "ro") 1 with
  | .ok (state :: _) => return some (state == '0'.toUInt8)
  | _ => return none

/-- The kernel's switch under `root`: told to change only if the device is not already in the
state that is asked for. -/
def sysfs (root : String) : WriteSwitch m where
  setWritable device writable := do
    match directory? root device with
    | none => return false
    | some directory =>
      match ← isWritable? directory with
      | none => return false
      | some now =>
        if now = writable then return false
        else
          Host.writeFront (Path.join directory "force_ro")
            [if writable then '0'.toUInt8 else '1'.toUInt8]

end WriteSwitch

def WriteProtection.switch {m : Type → Type} {Lock File : Type} [Monad m] [Host m Lock File] :
    WriteProtection → WriteSwitch m
  | .sysfs root => .sysfs root
  | .disabled => .absent

/-- A device made writable, to be protected again while the guard is active. -/
structure WriteGuard (m : Type → Type) where
  switch : WriteSwitch m
  device : String
  active : Bool

namespace WriteGuard

variable {m : Type → Type} [Monad m]

def enable (switch : WriteSwitch m) (device : String) : m (WriteGuard m) := do
  let _ ← switch.setWritable device true
  return { switch, device, active := true }

def restore (g : WriteGuard m) : m (WriteGuard m) := do
  if g.active then
    let _ ← g.switch.setWritable g.device false
    return { g with active := false }
  else return g

def drop (g : WriteGuard m) : m Unit := do
  let _ ← g.restore

/-- Protects the device now. The guard ends after that. -/
def release (g : WriteGuard m) : m Unit := do
  let g ← g.restore
  g.drop

variable [LawfulMonad m]

theorem drop_of_active {g : WriteGuard m} (hg : g.active = true) :
    g.drop = (do let _ ← g.switch.setWritable g.device false) := by
  simp only [drop, restore, hg, if_true, bind_assoc, pure_bind]

theorem release_eq_drop (g : WriteGuard m) : g.release = g.drop := by
  unfold release drop restore
  split
  · simp only [bind_assoc, pure_bind, Bool.false_eq_true, if_false]
  · next hidle => simp only [pure_bind, hidle, Bool.false_eq_true, if_false]

end WriteGuard

end BootStore

import BootStore.Session.Commit

/-!
# Boot progress

The boot-in-progress flag and the failed-boot count in the header. Each operation changes them and
commits at once.
-/
namespace BootStore

namespace Header

/-- A boot starts. If the one before was never marked good, it failed. -/
def startBoot (h : Header) : Header :=
  if h.inProgress then
    { h with failedBoots := if h.failedBoots = 255 then 255 else h.failedBoots + 1 }
  else { h with flags := h.flags ||| bootInProgress }

def endBoot (h : Header) : Header :=
  { h with flags := h.flags &&& ~~~ bootInProgress, failedBoots := 0 }

end Header

namespace Session

variable {m : Type → Type} [Monad m] [BlockDevice m]

/-- Records the start of a boot and gives the number of failed boots with it. -/
def markInProgress (s : Session) : m (Except StoreError UInt8 × Session) := do
  let (result, after) ← s.commitHeader s.header.startBoot
  return (result.map fun _ => s.header.startBoot.failedBoots, after)

/-- Records a good boot and gives the number of failed boots before it. -/
def markSuccessful (s : Session) : m (Except StoreError UInt8 × Session) := do
  let (result, after) ← s.commitHeader s.header.endBoot
  return (result.map fun _ => s.header.failedBoots, after)

end Session

end BootStore

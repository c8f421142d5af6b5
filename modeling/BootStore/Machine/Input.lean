import BootStore.Command.Run
import BootStore.Machine

/-!
# Standard input of a machine

A program that reads its standard input takes from what waits there.
-/
namespace BootStore.Machine

instance : StandardInput (StateM Machine) where
  readInput limit := fun m => m.takeInput limit

end BootStore.Machine

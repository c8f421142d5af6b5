import BootStore.Machine.FileTree

/-!
# The usual files

The tree that a program finds when it starts: devices under `/dev`, what the system tells of the
program under `/proc`, the lock of stores that were opened earlier under `/run`, and an empty
working directory.
-/
namespace BootStore.FileTree

/-- Nodes 0 to 6: the root and the directories in it that matter to a store. -/
def usualRoot : List Node := [
  .directory { parent := 0, entries :=
    [("dev", 1), ("proc", 2), ("run", 3), ("sys", 4), ("tmp", 5), ("work", 6), ("etc", 42),
      ("home", 43), ("root", 44), ("usr", 45), ("var", 46)] },
  .directory { parent := 0, entries :=
    [("null", 7), ("zero", 8), ("full", 9), ("random", 10), ("urandom", 11), ("tty", 12),
      ("fd", 13), ("stdin", 14), ("stdout", 15), ("stderr", 16), ("shm", 17), ("pts", 47)] },
  .directory { parent := 0, naming := .listed, entries :=
    [("self", 18), ("1", 19), ("sys", 20), ("filesystems", 21)] },
  .directory { parent := 0, entries := [("rk-bootinfo", 39)] },
  .directory { parent := 0, naming := .guarded, entries := [("block", 41)] },
  .directory { parent := 0 },
  .directory { parent := 0 }]

/-- Nodes 7 to 17: `/dev`. -/
def usualDevices : List Node := [
  .special .null,
  .special .zero,
  .special .full,
  .special .random,
  .special .random,
  .special .terminal,
  .link "/proc/self/fd",
  .link "/proc/self/fd/0",
  .link "/proc/self/fd/1",
  .link "/proc/self/fd/2",
  .directory { parent := 1 }]

/-- Nodes 18 to 35: `/proc`, where the program is process 1. -/
def usualReports : List Node := [
  .link "1",
  .directory { parent := 2, naming := .listed, entries :=
    [("fd", 24), ("cwd", 25), ("root", 26), ("exe", 27), ("comm", 28), ("cmdline", 29),
      ("environ", 30), ("status", 31), ("limits", 32)] },
  .directory { parent := 2, naming := .listed, entries := [("kernel", 22)] },
  .special (.report "nodev\tsysfs\n"),
  .directory { parent := 20, naming := .listed, entries := [("ostype", 23)] },
  .special (.systemFact "Linux\n"),
  .directory { parent := 19, naming := .listed, entries := [("0", 33), ("1", 34), ("2", 35)] },
  .jump 6,
  .jump 0,
  .jump 36,
  .special (.processName "bootinfo\n"),
  .special (.startText "bootinfo\x00"),
  .special (.startText "PATH=/bin\x00"),
  .special (.report "Name:\tbootinfo\n"),
  .special (.report
    "Limit                     Soft Limit           Hard Limit           Units     \n"),
  .jump 37,
  .jump 38,
  .jump 38]

/-- Nodes 36 to 38: the program and its streams, which have no names of their own. -/
def usualStreams : List Node := [
  .special .program,
  .special .input,
  .special .output]

/-- Nodes 39 to 41: the lock of earlier stores, and the switches of block devices. -/
def usualState : List Node := [
  .directory { parent := 3, entries := [("lockfile", 40)] },
  .file {},
  .directory { parent := 4, naming := .guarded }]

/-- Nodes 42 to 47: the other directories of the root, and the terminals under `/dev`. -/
def usualOthers : List Node := [
  .directory { parent := 0 },
  .directory { parent := 0 },
  .directory { parent := 0 },
  .directory { parent := 0 },
  .directory { parent := 0 },
  .directory { parent := 1, naming := .guarded }]

def usual : FileTree where
  nodes := usualRoot ++ usualDevices ++ usualReports ++ usualStreams ++ usualState ++ usualOthers
  working := 6

end BootStore.FileTree

import WarmCheck.Config
import WarmCheck.Failure
import WarmCheck.Shell.Run

/-!
# Launching programs

Programs that are started in a directory, with arguments and nothing to read. A checker is a script more often than
not, so what it prints and leaves on the disk is what a shell makes of it.

* `Launch.find`: what the program comes to, and how its directory is entered.
* `Launch.run`: a program from start to end.
* `Launch.check`: a direct run of the checker.
-/

namespace WarmCheck.Launch

/-- The disk with another current directory. -/
def enter (d : Disk) (dir : Path) : Except Fault Disk := do
  match ← d.find true dir with
  | .node place (.dir mode _) =>
    if Disk.may 1 mode then return { d with cwd := place } else .error (.os .accessDenied)
  | .node .. => .error (.os .notDirectory)
  | .vacant .. => .error (.os .noEntry)

/-- What the program that a name stands for comes to, seen from a directory, and the disk seen from
there. -/
def find (d : Disk) (env : Environment) (program cwd : Path) (args : List Bytes) :
    Except Fault (Image × Disk) := do
  if (program.bytes :: cwd.bytes :: args).any (·.contains 0) then .error .argumentHasNul
  else
    let d ← enter d cwd
    return (← Image.find d env program args, d)

/-- Whether a program can be started in a directory. -/
def canStart (d : Disk) (env : Environment) (program cwd : Path) (args : List Bytes) : Bool :=
  (find d env program cwd args).isOk

/-- A program from start to end. The disk is as the caller sees it. -/
def run (d : Disk) (env : Environment) (program cwd : Path) (args : List Bytes) :
    Except Fault Shell.Process.Outcome := do
  let (image, inside) ← find d env program cwd args
  let outcome := Shell.Process.run inside env image
  return { outcome with disk := { outcome.disk with cwd := d.cwd } }

/-- Run the checker once, as the configuration says. -/
def check (d : Disk) (env : Environment) (c : Config) : Except Failure Shell.Process.Outcome :=
  (run d env c.checker c.root c.directArgs).mapError (.spawn c.checker.display)

end WarmCheck.Launch

import WarmCheck.Disk.Change

/-!
# Actions on the disk

What people and tools do to the files of a workspace.

* `Disk.Action`, `Disk.act`.
-/

namespace WarmCheck.Disk

/-- One thing done to the disk. -/
inductive Action where
  /-- A file with this content, and the directories above it. -/
  | write (path : Path) (data : Bytes) (program : Bool)
  | append (path : Path) (data : Bytes)
  | makeDirs (path : Path)
  | remove (path : Path)
  | removeTree (path : Path)
  | rename (path target : Path)
  | link (path target : Path)
  | setMode (path : Path) (mode : Nat)
  | read (path : Path)
  /-- A socket at which nobody listens any more, and the directories above it. -/
  | staleSocket (path : Path)
  deriving Repr

/-- The directories above a path. -/
def createParents (d : Disk) (p : Path) : Except Fault Disk :=
  match p.parent? with
  | some dir => d.createDirs dir
  | none => .ok d

/-- Carry out an action. -/
def act (d : Disk) : Action → Except Fault Disk
  | .write p data program => do
    let d ← d.createParents p
    let d ← d.writeFile p data
    if program then d.setMode p dirMode else return d
  | .append p data => d.appendFile p data
  | .makeDirs p => d.createDirs p
  | .remove p => d.remove p
  | .removeTree p => d.removeTree p
  | .rename p q => d.rename p q
  | .link p target => d.createLink p target
  | .setMode p mode => d.setMode p mode
  | .read p => (d.read p).map fun _ => d
  | .staleSocket p => do
    let d ← d.createParents p
    let d ← d.bindSocket p 0
    return d.closeListener 0 p

/-- Carry out an action; one that fails changes nothing. -/
def actOrStay (d : Disk) (a : Action) : Disk :=
  match d.act a with
  | .ok d => d
  | .error _ => d

/-- Carry out actions in order. -/
def actAll (d : Disk) (as : List Action) : Disk := as.foldl actOrStay d

end WarmCheck.Disk

import WarmCheck.Disk.Node

/-!
# Finding a path on disk

* `Disk`: a tree, with the current directory of the process.
* `Disk.walk`: from a directory along names, following symbolic links.
* `Disk.find`: what a path leads to.
-/

namespace WarmCheck

/-- The disk as a process sees it. -/
structure Disk where
  top : Node
  cwd : Place

/-- Where a path leads. -/
inductive Found where
  /-- Something is there. -/
  | node (place : Place) (node : Node)
  /-- Nothing is there, but its directory is. -/
  | vacant (dir : Place) (name : Name)

namespace Disk

/-- The longest name, in octets. -/
def maxName : Nat := 255

/-- The longest path, in octets. -/
def maxPath : Nat := 4095

/-- The number of symbolic links that a path may lead through. -/
def maxLinks : Nat := 40

/-- Whether the process may do with something of this mode what `right` stands for: 4 to read, 2 to
write, 1 to run or enter. The process owns everything and has no other privilege. -/
def may (right mode : Nat) : Bool := mode / 64 / right % 2 == 1

/-- The names along a path. Double slashes mean nothing, and a slash at the end asks for a directory
as a dot does. -/
def names (p : Path) : List Name :=
  let segs := (List.splitOn Path.slash p.bytes).filter (· ≠ [])
  if p.bytes.getLast? = some Path.slash ∧ segs ≠ [] then segs ++ [[Path.dot]] else segs

/-- From a directory along names, through at most `links` symbolic links. The last name is followed
if it is a link only where `follow` says so. -/
def walk (d : Disk) (follow : Bool) (links : Nat) (here : Place) (rest : List Name) :
    Except Errno Found :=
  match d.top.get? here, rest with
  | none, _ => .error .noEntry
  | some n, [] => .ok (.node here n)
  | some (.dir mode es), name :: rest =>
    if !may 1 mode then .error .accessDenied
    else if name = [Path.dot] then d.walk follow links here rest
    else if name = [Path.dot, Path.dot] then d.walk follow links here.dropLast rest
    else if maxName < name.length then .error .nameTooLong
    else
      match es.lookup name with
      | none => if rest = [] then .ok (.vacant here name) else .error .noEntry
      | some (.link target) =>
        if rest = [] ∧ !follow then .ok (.node (here ++ [name]) (.link target))
        else
          match links with
          | 0 => .error .linkLoop
          | links + 1 =>
            if target.bytes = [] then .error .noEntry
            else d.walk follow links (if target.isAbsolute then [] else here) (names target ++ rest)
      | some _ => d.walk follow links (here ++ [name]) rest
  | some _, _ :: _ => .error .notDirectory
termination_by (links, rest.length)

/-- Where a path can be looked for at all. -/
def checkPath (p : Path) : Except Fault Unit :=
  if p.bytes.contains 0 then .error .pathHasNul
  else if p.bytes = [] then .error (.os .noEntry)
  else if maxPath < p.bytes.length then .error (.os .nameTooLong)
  else .ok ()

/-- What a path leads to. -/
def find (d : Disk) (follow : Bool) (p : Path) : Except Fault Found := do
  checkPath p
  (d.walk follow maxLinks (if p.isAbsolute then [] else d.cwd) (names p)).mapError .os

/-- What is at a path, as `find` finds it. -/
def lookup (d : Disk) (follow : Bool) (p : Path) : Except Fault Node := do
  match ← d.find follow p with
  | .node _ n => return n
  | .vacant .. => .error (.os .noEntry)

/-! ## Questions -/

/-- The place that a path leads to. -/
def place? (d : Disk) (follow : Bool) (p : Path) : Option Place :=
  match d.find follow p with
  | .ok (.node place _) => some place
  | _ => none

/-- Whether a path leads to something. -/
def reaches (d : Disk) (p : Path) : Bool := (d.lookup true p).isOk

/-- Whether something is at a path, be it a link that leads nowhere. -/
def occupied (d : Disk) (p : Path) : Bool := (d.lookup false p).isOk

/-- Whether a path leads to a directory. -/
def isDir (d : Disk) (p : Path) : Bool :=
  match d.lookup true p with
  | .ok n => n.isDir
  | .error _ => false

/-- Whether a path leads to a file. -/
def isFile (d : Disk) (p : Path) : Bool :=
  match d.lookup true p with
  | .ok n => n.isFile
  | .error _ => false

/-- The content of the file that a path leads to. -/
def read (d : Disk) (p : Path) : Except Fault Bytes := do
  match ← d.lookup true p with
  | .file data mode => if may 4 mode then return data else .error (.os .accessDenied)
  | .dir .. => .error (.os .isDirectory)
  | _ => .error (.os .noDevice)

/-- The entries of the directory that a path leads to. -/
def list (d : Disk) (p : Path) : Except Fault (List (Name × Node)) := do
  match ← d.lookup true p with
  | .dir mode es => if may 4 mode then return es else .error (.os .accessDenied)
  | _ => .error (.os .notDirectory)

/-- The absolute path without links to what a path leads to. -/
def canonical (d : Disk) (p : Path) : Except Fault Path := do
  match ← d.find true p with
  | .node place _ => return place.path
  | .vacant .. => .error (.os .noEntry)

/-- Who listens at the socket that a path leads to. -/
def listenerAt (d : Disk) (p : Path) : Except Fault (Option Nat) := do
  match ← d.lookup true p with
  | .socket listener _ => return listener
  | _ => return none

end Disk

end WarmCheck

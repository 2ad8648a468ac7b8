import WarmCheck.Disk.Walk

/-!
# Changing the disk

The operations by which files come and go.

* `Disk.createDir`, `Disk.createDirs`, `Disk.writeFile`, `Disk.remove`, `Disk.rename` and others.
* `Disk.bindSocket`: a listener at a path.
-/

namespace WarmCheck

namespace Node

mutual

/-- Whether a directory may be emptied, with all directories below it. -/
def mayGo : Node → Bool
  | .dir mode es => Disk.may 4 mode && (es.isEmpty || (Disk.may 2 mode && Disk.may 1 mode)) && mayAllGo es
  | .file .. | .link _ | .socket .. => true

/-- Whether entries may be emptied. -/
def mayAllGo : List (Name × Node) → Bool
  | [] => true
  | (_, n) :: es => n.mayGo && mayAllGo es

end

end Node

namespace Disk

/-- The mode of a new file. -/
def fileMode : Nat := 0o644

/-- The mode of a new directory, and of a program. -/
def dirMode : Nat := 0o755

/-- With another node at a place. -/
def put (d : Disk) (place : Place) (n : Node) : Disk := { d with top := n.put d.top place }

/-- Without what is at a place. -/
def erase (d : Disk) (place : Place) : Disk := { d with top := d.top.erase place }

/-- Whether entries of the directory at a place may come and go. -/
def mayChange (d : Disk) (dir : Place) : Bool :=
  match d.top.get? dir with
  | some (.dir mode _) => may 2 mode && may 1 mode
  | _ => false

/-- A new entry at a vacant place. -/
def add (d : Disk) (dir : Place) (name : Name) (n : Node) : Except Fault Disk :=
  if d.mayChange dir then .ok (d.put (dir ++ [name]) n) else .error (.os .accessDenied)

/-- Without an entry. -/
def drop (d : Disk) (place : Place) : Except Fault Disk :=
  if d.mayChange place.dropLast then .ok (d.erase place) else .error (.os .accessDenied)

/-- A path without the slashes at its end. -/
def trimSlashes (p : Path) : Path :=
  match p.bytes.reverse.dropWhile (· = Path.slash) with
  | [] => p
  | bs => ⟨bs.reverse⟩

/-- A new entry at a path where nothing is, not even a link that leads nowhere. With a slash at the
end the path asks for a directory. -/
def create (d : Disk) (p : Path) (n : Node) : Except Fault Disk := do
  checkPath p
  let bare := trimSlashes p
  match ← d.find false bare with
  | .node .. => .error (.os .alreadyExists)
  | .vacant dir name => if bare = p ∨ n.isDir then d.add dir name n else .error (.os .noEntry)

/-! ## Directories -/

/-- A new empty directory. -/
def createDir (d : Disk) (p : Path) : Except Fault Disk := d.create p (.dir dirMode [])

/-- A directory at a path, where one that is there already will do. -/
def ensureDir (d : Disk) (p : Path) : Except Fault Disk :=
  match d.createDir p with
  | .ok d => .ok d
  | .error e => if d.isDir p then .ok d else .error e

/-- A directory at the first of a list of paths, each the parent of the one before it; those that
are missing are made first. -/
def createChain (d : Disk) : List Path → Except Fault Disk
  | [] => .ok d
  | p :: above =>
    if p.bytes = [] then .ok d
    else
      match d.createDir p with
      | .ok d => .ok d
      | .error e =>
        if e = .os .noEntry ∧ above ≠ [] then do
          let d ← d.createChain above
          d.ensureDir p
        else if d.isDir p then .ok d
        else .error e

/-- A directory at a path, with all directories above it. -/
def createDirs (d : Disk) (p : Path) : Except Fault Disk := d.createChain p.ancestors

/-! ## Files -/

/-- The file that a path leads to with other content, or a new file. -/
def updateFile (d : Disk) (p : Path) (content : Bytes → Bytes) : Except Fault Disk := do
  match ← d.find true p with
  | .node place (.file data mode) =>
    if may 2 mode then return d.put place (.file (content data) mode)
    else .error (.os .accessDenied)
  | .node _ (.dir ..) => .error (.os .isDirectory)
  | .node .. => .error (.os .noDevice)
  | .vacant dir name => d.add dir name (.file (content []) fileMode)

/-- The content of a file replaced. -/
def writeFile (d : Disk) (p : Path) (data : Bytes) : Except Fault Disk :=
  d.updateFile p fun _ => data

/-- The content of a file extended. -/
def appendFile (d : Disk) (p : Path) (data : Bytes) : Except Fault Disk :=
  d.updateFile p (· ++ data)

/-- Without the entry at a path, which may be anything but a directory. -/
def remove (d : Disk) (p : Path) : Except Fault Disk := do
  match ← d.find false p with
  | .node _ (.dir ..) => .error (.os .isDirectory)
  | .node place _ => d.drop place
  | .vacant .. => .error (.os .noEntry)

/-- Without what is at a path, be it a directory with all that is in it. Nothing goes if something in
it may not go. -/
def removeTree (d : Disk) (p : Path) : Except Fault Disk := do
  match ← d.find false p with
  | .node place n => if n.mayGo then d.drop place else .error (.os .accessDenied)
  | .vacant .. => .error (.os .noEntry)

/-- What is at `p` moved to `q`, in the place of what is there. A directory takes the place of an
empty directory only, and anything else that of anything but a directory. -/
def rename (d : Disk) (p q : Path) : Except Fault Disk := do
  match ← d.find false p with
  | .vacant .. => .error (.os .noEntry)
  | .node place n =>
    match ← d.find false (if n.isDir then trimSlashes q else q) with
    | .vacant dir name =>
      if n.isDir && place.isPrefixOf dir then .error (.os .invalid)
      else
        let d ← d.drop place
        d.add dir name n
    | .node other old =>
      if other = place then return d
      else if n.isDir && place.isPrefixOf other then .error (.os .invalid)
      else if n.isDir && !old.isDir then .error (.os .notDirectory)
      else if !n.isDir && old.isDir then .error (.os .isDirectory)
      else if !old.entries.isEmpty then .error (.os .notEmpty)
      else
        let d ← d.drop place
        return d.put other n

/-- A symbolic link at `p` that points to `target`. -/
def createLink (d : Disk) (p target : Path) : Except Fault Disk := d.create p (.link target)

/-- The mode of what a path leads to set. -/
def setMode (d : Disk) (p : Path) (mode : Nat) : Except Fault Disk := do
  match ← d.find true p with
  | .node place (.file data _) => return d.put place (.file data mode)
  | .node place (.dir _ es) => return d.put place (.dir mode es)
  | .node place (.socket listener _) => return d.put place (.socket listener mode)
  | .node _ (.link _) => return d
  | .vacant .. => .error (.os .noEntry)

/-! ## Sockets -/

/-- The longest path of a socket, in octets. -/
def maxAddress : Nat := 107

/-- Whether an address is no path on the disk: it is empty, or begins with a NUL. -/
def isOffDisk (p : Path) : Bool := p.bytes = [] || p.bytes.head? == some 0

/-- Where a socket can be put at all. -/
def checkAddress (p : Path) : Except Fault Unit :=
  if (p.bytes.drop 1).contains 0 ∧ !isOffDisk p then .error .addressHasNul
  else if maxAddress < p.bytes.length then .error .addressTooLong
  else .ok ()

/-- A socket with a listener at a path where nothing is. A socket that is not on the disk changes
nothing there. -/
def bindSocket (d : Disk) (p : Path) (listener : Nat) : Except Fault Disk := do
  checkAddress p
  if isOffDisk p then return d
  match d.create p (.socket (some listener) dirMode) with
  | .error (.os e) => .error (.os (if e = .alreadyExists then .addressInUse else e))
  | bound => bound

/-- With no listener at the sockets where `listener` was. -/
def closeListener (d : Disk) (listener : Nat) (p : Path) : Disk :=
  match d.find true p with
  | .ok (.node place (.socket (some l) mode)) =>
    if l = listener then d.put place (.socket none mode) else d
  | _ => d

/-- Who answers a connection to a path. Whoever connects has to be allowed to write to the socket. -/
def connect (d : Disk) (p : Path) : Except Fault Nat := do
  checkAddress p
  if isOffDisk p then .error (.os .connectionRefused)
  else
    match ← d.lookup true p with
    | .socket listener mode =>
      if !may 2 mode then .error (.os .accessDenied)
      else
        match listener with
        | some l => return l
        | none => .error (.os .connectionRefused)
    | _ => .error (.os .connectionRefused)

end Disk

end WarmCheck

import WarmCheck.Endpoint
import WarmCheck.Marker
import WarmCheck.Workspace

/-!
# Artifacts

The two files that a daemon claims, and releases when it ends: the endpoint and the process marker.

* `Slot`: what is at the path of one of them; `Slot.unlink`, `Slot.create`, `Slot.write`, `Slot.bind`, `Slot.listen`
  and others.
* `Artifacts`: both of them.
* `Artifacts.ofDisk`, `Artifacts.store`: the artifacts on a disk.
-/

namespace WarmCheck.Daemon

/-- What is at a path. -/
inductive Slot where
  | vacant
  /-- A file, and the processes that have it open to write it. -/
  | file (content : Bytes) (mode : Nat) (writers : List Nat)
  | dir
  /-- A socket that a process has bound, and at which it does not listen yet. -/
  | bound (owner : Nat) (mode : Nat)
  /-- A socket, and the process that listens at it. -/
  | socket (listener : Option Nat) (mode : Nat)
  /-- A symbolic link to what it leads to. -/
  | link (target : Slot)
  /-- In a directory whose entries may neither come nor go. -/
  | fixed (entry : Slot)
  /-- The directories above cannot be followed. -/
  | blocked (fault : Fault)
  deriving DecidableEq, Repr

namespace Slot

/-- Whether the path leads to something. -/
def reaches : Slot → Bool
  | vacant | blocked _ => false
  | link target | fixed target => target.reaches
  | file .. | dir | bound .. | socket .. => true

/-- The process that answers a connection, if connections are allowed. -/
def listener? : Slot → Option Nat
  | socket listener mode => if Disk.may 2 mode then listener else none
  | link target | fixed target => target.listener?
  | vacant | blocked _ | file .. | dir | bound .. => none

/-- The content of the file that the path leads to, if it may be read. -/
def content? : Slot → Option Bytes
  | file content mode _ => if Disk.may 4 mode then some content else none
  | link target | fixed target => target.content?
  | vacant | blocked _ | bound .. | socket .. | dir => none

/-- Without what is there; what may not go stays, and so does a directory. -/
def unlink : Slot → Slot
  | dir => dir
  | fixed entry => fixed entry
  | blocked fault => blocked fault
  | vacant | file .. | bound .. | socket .. | link _ => vacant

/-- With an empty file that a process has open to write it: a new one, or what was there without its content. -/
def create (pid : Nat) : Slot → Except Fault Slot
  | vacant => .ok (file [] Disk.fileMode [pid])
  | file _ mode writers =>
    if Disk.may 2 mode then .ok (file [] mode (pid :: writers)) else .error (.os .accessDenied)
  | dir => .error (.os .isDirectory)
  | bound .. | socket .. => .error (.os .noDevice)
  | link target => (target.create pid).map link
  | fixed vacant => .error (.os .accessDenied)
  | fixed entry => (entry.create pid).map fixed
  | blocked fault => .error fault

/-- What a file holds after something has been written over its beginning. -/
def overlay (content old : Bytes) : Bytes := content ++ old.drop content.length

/-- After a process has written to the file that it has open, from its beginning on, and closed it. If this
file has been taken away, what is here is not what it writes to. -/
def write (pid : Nat) (content : Bytes) : Slot → Slot
  | file old mode writers =>
    if pid ∈ writers then file (overlay content old) mode (writers.filter (· ≠ pid))
    else file old mode writers
  | link target => link (target.write pid content)
  | fixed entry => fixed (entry.write pid content)
  | s => s

/-- With a socket that a process has bound. -/
def bind (pid : Nat) : Slot → Except Fault Slot
  | vacant => .ok (bound pid Disk.dirMode)
  | fixed vacant => .error (.os .accessDenied)
  | blocked fault => .error fault
  | file .. | dir | bound .. | socket .. | link _ | fixed _ => .error (.os .addressInUse)

/-- After a process has begun to listen at the socket that it has bound, which may have been taken away. -/
def listen (pid : Nat) : Slot → Slot
  | bound owner mode => if owner = pid then socket (some pid) mode else bound owner mode
  | s => s

/-- Setting the mode of what the path leads to. -/
def protect : Slot → Except Fault Unit
  | vacant => .error (.os .noEntry)
  | blocked fault => .error fault
  | link target | fixed target => target.protect
  | file .. | dir | bound .. | socket .. => .ok ()

/-- After a process has ceased to listen. -/
def close (pid : Nat) : Slot → Slot
  | socket listener mode => socket (if listener = some pid then none else listener) mode
  | link target => link (target.close pid)
  | fixed entry => fixed (entry.close pid)
  | s => s

theorem unlink_unlink (s : Slot) : s.unlink.unlink = s.unlink := by cases s <;> rfl

/-! ## On a disk -/

/-- What a node is. -/
def ofNode : Node → Slot
  | .file data mode => file data mode []
  | .dir .. => dir
  | .socket listener mode => socket listener mode
  | .link _ => vacant

/-- An entry of the directory at a place. -/
def inDir (d : Disk) (place : Place) (s : Slot) : Slot := if d.mayChange place then s else fixed s

/-- What a path is found to lead to. -/
def ofFound (d : Disk) : Except Fault Found → Slot
  | .ok (.node place n) => inDir d place.dropLast (ofNode n)
  | .ok (.vacant place _) => inDir d place vacant
  | .error fault => blocked fault

/-- What is at a path of a disk. -/
def ofDisk (d : Disk) (p : Path) : Slot :=
  match d.find false p with
  | .ok (.node place (.link _)) => inDir d place.dropLast (link (ofFound d (d.find true p)))
  | found => ofFound d found

/-- The disk with this at a path, in the place of what is there. A link that is still there is fixed,
or what it leads to has changed only in who listens. -/
def store (d : Disk) (p : Path) : Slot → Disk
  | vacant => Endpoint.release d p
  | file content .. =>
    let d := Endpoint.release d p
    (d.writeFile p content).toOption.getD d
  | bound pid _ =>
    let d := Endpoint.release d p
    (Endpoint.listen d p pid).1.closeListener pid p
  | socket (some pid) _ =>
    let d := Endpoint.release d p
    (Endpoint.listen d p pid).1
  | socket none _ =>
    match d.listenerAt p with
    | .ok (some pid) => d.closeListener pid p
    | _ => d
  | link entry | fixed entry => store d p entry
  | dir | blocked _ => d

end Slot

/-- What a daemon meets in its workspace: the cache directory can be made or not, a socket can be put
at the endpoint or not, and what is at the endpoint and at the marker. -/
structure Artifacts where
  cache : Except Fault Unit := .ok ()
  address : Except Fault Unit := .ok ()
  endpoint : Slot
  marker : Slot

namespace Artifacts

/-- The artifacts of a workspace whose cache directory has been made. -/
def ofDisk (d : Disk) (w : Workspace) : Artifacts where
  address := Disk.checkAddress w.endpoint
  endpoint := .ofDisk d w.endpoint
  marker := .ofDisk d w.marker

/-- The disk on which the artifacts are not the old ones any more. What has not changed is left
alone. -/
def store (old new : Artifacts) (w : Workspace) (d : Disk) : Disk :=
  let d := if new.endpoint = old.endpoint then d else new.endpoint.store d w.endpoint
  if new.marker = old.marker then d else new.marker.store d w.marker

/-- Who answers at the endpoint. -/
def answering? (a : Artifacts) : Option Nat :=
  match a.address with
  | .ok _ => a.endpoint.listener?
  | .error _ => none

/-- The artifacts with a socket at the endpoint. -/
def bind (a : Artifacts) (pid : Nat) : Except Fault Artifacts := do
  a.address
  return { a with endpoint := ← a.endpoint.bind pid }

/-- Whether the marker names another process. -/
def isForeign (a : Artifacts) (pid : Nat) : Bool :=
  match a.marker.content?.bind Marker.pid? with
  | some n => n != (pid : Int)
  | none => false

end Artifacts

end WarmCheck.Daemon

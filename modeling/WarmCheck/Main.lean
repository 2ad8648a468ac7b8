import WarmCheck.CommandLine.Run

/-!
# The program

The program sees the machine through its files and variables alone: it takes an image of the files
that a command looks at, carries the command out on the image, and writes what the command says. It
neither connects to sockets nor sends signals, so every endpoint is silent to it; where a command would
do something to another process, or become a daemon, it says so instead.

* `Image.load`: one file or directory of the machine in the image.
* `main`: a command.
-/

namespace WarmCheck.CommandLine

/-- The variables that some command looks at. -/
def variableNames : List String :=
  ["TMPDIR", "PATH", "CHECKD_DISABLE", "CHECKD_CHECKER", "CHECKD_SYNC", "CHECKD_BIG_CHANGES_DIR",
    "CLICOLOR", "CLICOLOR_FORCE", "NO_COLOR"]

/-- The variables of this process. -/
def readEnvironment : IO Environment := do
  let entries ← variableNames.filterMapM fun name => do
    return (← IO.getEnv name).map fun value => (name, Utf8.ofString value)
  return ⟨entries⟩

namespace Image

/-- The node at a path of the machine. -/
def observe (p : String) : IO (Option Node) := do
  try
    let content ← IO.FS.readBinFile p
    return some (.file content.toList Disk.dirMode)
  catch _ =>
    try
      let _ ← IO.FS.realPath p
      return some (.dir Disk.dirMode [])
    catch _ => return none

/-- The image with the node at a path of the machine, if there is one. -/
def load (d : Disk) (p : Path) : IO Disk := do
  match ← observe p.display with
  | none => return d
  | some (.file content mode) =>
    let d := ((d.createParents p).bind (·.writeFile p content)).toOption.getD d
    return (d.setMode p mode).toOption.getD d
  | some _ => return (d.createDirs p).toOption.getD d

/-- An image with nothing in it. -/
def empty (cwd : String) : Disk :=
  { top := .dir Disk.dirMode []
    cwd := Disk.names (.ofString cwd) }

/-- The image of the files that a command for a workspace looks at. -/
def ofWorkspace (env : Environment) (cwd : String) (root : Path) : IO Disk := do
  let w := Workspace.of root env
  let tool := fun (name : String) => root.join (.ofString ("node_modules/.bin/" ++ name))
  let named := (env.nonEmpty? "CHECKD_CHECKER").toList.map fun p => root.join ⟨p⟩
  ([.ofString cwd, root, w.marker, tool "svelte-check", tool "svelte-kit", .ofString "/bin/sh"] ++
    named).foldlM load (empty cwd)

end Image

/-- Whether a process exists. -/
def processExists (pid : Int) : IO Bool := do
  try
    let _ ← IO.FS.realPath ("/proc/" ++ toString pid)
    return true
  catch _ => return false

/-- Octets written to a stream. -/
def writeOctets (stream : IO.FS.Stream) (bs : Bytes) : IO Unit := do
  stream.write ⟨bs.toArray⟩
  stream.flush

/-- What a command has to say, and its status. What it would do to a process is only told. -/
def tell (o : Outcome) : IO UInt32 := do
  writeOctets (← IO.getStderr) o.err
  if o.signal.isSome ∨ o.session.isSome then
    writeOctets (← IO.getStderr) (Utf8.ofString "error: other processes are out of reach\n")
    return 1
  writeOctets (← IO.getStdout) o.out
  return UInt32.ofNat o.status

/-- A command for a workspace of the machine. -/
def runOnMachine (v : Verb) (s : Settings) : IO UInt32 := do
  let env ← readEnvironment
  let cwd := (← IO.currentDir).toString
  try
    let root := Path.ofString (← IO.FS.realPath s.rootPath.display).toString
    let disk ← Image.ofWorkspace env cwd root
    let w : World := { disk, env, isTerminal := ← (← IO.getStdout).isTty }
    let pid := ((markerContent w (.of root env)).bind Marker.pid?).getD 0
    let isThere ← processExists pid
    tell (runAt { w with lives := fun n => n = pid ∧ isThere } root v s)
  catch _ => tell (.complain (Image.empty cwd) 1 (inaccessible s.rootPath (.os .noEntry)))

/-- A command line from start to end. -/
def program (arguments : List String) : IO UInt32 := do
  let arguments := arguments.map Utf8.ofString
  match Invocation.ofArguments arguments with
  | .ok (.run v s) => runOnMachine v s
  | _ => tell (run { disk := Image.empty "/", env := ⟨[]⟩ } arguments)

end WarmCheck.CommandLine

/-- The program. -/
def main (arguments : List String) : IO UInt32 := WarmCheck.CommandLine.program arguments

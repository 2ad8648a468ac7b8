import WarmCheck.CommandLine.Help
import WarmCheck.CommandLine.Summary
import WarmCheck.Daemon.Session
import WarmCheck.Wait

/-!
# Commands

What the program does for a list of arguments.

* `World`: what it sees of the machine.
* `Outcome`: what it writes, its exit status, and what it does to other processes.
* `runAt`: a command for a workspace; `run`: for a list of arguments.
-/

namespace WarmCheck.CommandLine

/-- What the program sees of the machine: how the listener of a number answers queries, which processes
exist, the time in milliseconds, and its own process. -/
structure World where
  disk : Disk
  env : Environment
  answers : Nat → Wait.Answers := fun _ _ _ => ⟨none, 0⟩
  lives : Int → Bool := fun _ => false
  now : Nat := 0
  isTerminal : Bool := false
  pid : Nat := 1

/-- What the program has done. A process that has become a daemon has no exit status yet. -/
structure Outcome where
  status : Nat
  out : Bytes := []
  err : Bytes := []
  disk : Disk
  signal : Option Marker.Signal := none
  session : Option Daemon.Session := none

namespace Outcome

/-- Text on the standard output. -/
def say (w : World) (status : Nat) (text : String) : Outcome :=
  { status, out := Utf8.ofString text, disk := w.disk }

/-- Text on the error output. -/
def complain (d : Disk) (status : Nat) (text : String) : Outcome :=
  { status, err := Utf8.ofString text, disk := d }

/-- What was tried, and why it did not succeed, down to the cause. -/
def fail (d : Disk) (attempt : String) (f : Failure) : Outcome :=
  complain d 1 ("error: " ++ ": ".intercalate (attempt :: f.message :: f.source?.toList) ++ "\n")

end Outcome

/-- The status of a command that has succeeded or not. -/
def statusOf (success : Bool) : Nat := if success then 0 else 1

/-! ## Asking the daemon -/

/-- How the queries of one command are answered. -/
def ask (w : World) (p : Workspace) : Wait.Answers := fun n now =>
  match w.disk.connect p.endpoint with
  | .ok listener => w.answers listener n now
  | .error _ => ⟨none, 0⟩

/-- The content of the marker. -/
def markerContent (w : World) (p : Workspace) : Option Bytes := (w.disk.read p.marker).toOption

/-! ## The verbs -/

/-- The configuration of a workspace. -/
def configOf (w : World) (root : Path) (s : Settings) : Config :=
  .ofEnvironment w.disk.isFile w.env root s.tsconfig

/-- The checker is run directly, with the outputs of this process. -/
def checkDirectly (w : World) (c : Config) : Outcome :=
  match Launch.check w.disk w.env c with
  | .ok o => { status := statusOf o.ending.isSuccess, out := o.out, err := o.err, disk := o.disk }
  | .error f => .fail w.disk "failed to run the checker directly" f

/-- What a check makes of the end of its wait. -/
def report (w : World) (c : Config) : Wait.Outcome → Outcome
  | .complete s => .say w (statusOf !s.hasErrors) (if s.output = "" then "" else s.output ++ "\n")
  | .timedOut _ =>
    .complain w.disk 1 ("timed out after " ++ number (Wait.Plan.check.ceiling / 1000) ++
      "s waiting for the running check to finish\n")
  | .noDaemon => checkDirectly w c

/-- The answer of the daemon when it has one that is complete; a direct run where there is no
daemon, or none is wanted. -/
def check (w : World) (root : Path) (s : Settings) : Outcome :=
  let c := configOf w root s
  if Config.isDisabled w.env then checkDirectly w c
  else report w c (Wait.run .check (ask w (.of root w.env))).1

/-- A summary, or the snapshot itself. -/
def status (w : World) (root : Path) (s : Settings) : Outcome :=
  let p := Workspace.of root w.env
  let palette := Palette.of w.env w.isTerminal
  match (ask w p 0 0).snapshot with
  | some snapshot =>
    if s.json then .say w 0 (String.ofList snapshot.pretty ++ "\n")
    else .say w 0 (summary palette w.now snapshot)
  | none =>
    let note :=
      if Marker.isAlive w.lives (markerContent w p) then
        "daemon process is alive but not answering"
      else "daemon is not running"
    .say w 1 (palette.paint .red note ++ "\n")

/-- The daemon is asked to end. -/
def stop (w : World) (root : Path) : Outcome :=
  match Marker.stop? w.lives (markerContent w (.of root w.env)) with
  | some signal => { Outcome.say w 0 "daemon stop requested\n" with signal := some signal }
  | none => .say w 1 "daemon is not running\n"

/-- What is said when a daemon has failed. -/
def daemonAttempt : String := "daemon exited with error"

/-- This process becomes a daemon. -/
def start (w : World) (root : Path) (s : Settings) : Outcome :=
  match Daemon.Session.start w.disk w.env (configOf w root s) w.pid w.now with
  | (disk, .ok session) => { status := 0, disk, session := some session }
  | (disk, .error f) => .fail disk daemonAttempt f

/-- The end of a process that has been a daemon. -/
def ofEnding (d : Disk) : Daemon.Ending → Outcome
  | .stopped none => { status := 0, disk := d }
  | .stopped (some f) | .refused f => .fail d daemonAttempt f

/-! ## The whole -/

/-- A command for the workspace at a canonical root. -/
def runAt (w : World) (root : Path) (v : Verb) (s : Settings) : Outcome :=
  match v with
  | .start => start w root s
  | .check => check w root s
  | .stop => stop w root
  | .status => status w root s

/-- What is said when the root cannot be reached. -/
def inaccessible (root : Path) (e : Fault) : String :=
  "error: workspace root " ++ root.display ++ " is not accessible: " ++ e.message ++ "\n"

/-- What the program does for a list of arguments. -/
def run (w : World) (arguments : List Bytes) : Outcome :=
  match Invocation.ofArguments arguments with
  | .error e => .complain w.disk 2 e.text
  | .ok .version => .say w 0 versionText
  | .ok (.help topic) => .say w 0 topic.text
  | .ok (.run v s) =>
    match w.disk.canonical s.rootPath with
    | .ok root => runAt w root v s
    | .error e => .complain w.disk 1 (inaccessible s.rootPath e)

end WarmCheck.CommandLine

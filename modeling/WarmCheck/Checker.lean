import WarmCheck.Supervisor
import WarmCheck.Launch

/-!
# Checker processes

A supervisor with the processes around it: the checker that it runs, and a process that a checker has
left behind on its pipes.

* `Checker.Scene`: a supervisor at work.
* `Checker.Scene.act`: something that a process does.
-/

namespace WarmCheck.Checker

/-- A program with its arguments and its directory. -/
structure Command where
  program : Path
  args : List Bytes
  cwd : Path
  deriving DecidableEq, Repr

/-- The command of the checker that keeps watching. -/
def Command.watch (c : Config) : Command := ⟨c.checker, c.watchArgs, c.root⟩

/-- A supervisor at work: whether its program can be started, the number of processes started so far,
and the generation whose pipes the process left behind last writes to. -/
structure Scene where
  supervisor : Supervisor
  startable : Bool
  runs : Nat := 0
  ghost : Option Nat := none
  deriving DecidableEq, Repr

/-- Something that a process does. -/
inductive Act where
  /-- The checker writes to a pipe. -/
  | write (pipe : Pipe) (data : Bytes)
  /-- The checker ends. -/
  | exit
  /-- The checker leaves a process behind. -/
  | leaveGhost
  /-- The process left behind writes to a pipe. -/
  | ghostWrite (pipe : Pipe) (data : Bytes)
  deriving DecidableEq, Repr

namespace Scene

/-- A scene in which the checker has been started. -/
def begin (startable : Bool) (now : UInt64) : Scene where
  supervisor := (Supervisor.new now).start startable
  startable
  runs := if startable then 1 else 0

/-- A restart of the checker. -/
def restart (s : Scene) (now : UInt64) : Scene :=
  { s with
    supervisor := s.supervisor.restart s.startable now
    runs := if s.startable then s.runs + 1 else s.runs }

/-- The checker is killed. -/
def stop (s : Scene) : Scene := { s with supervisor := s.supervisor.stop }

/-- The supervisor is gone. -/
def drop (s : Scene) : Scene := { s with supervisor := s.supervisor.drop }

/-- Something that a process does; `none` if there is no such process. -/
def act? (s : Scene) (now : UInt64) : Act → Option Scene
  | .write p data => s.supervisor.child.map fun g =>
    { s with supervisor := s.supervisor.takeChunk g p data now }
  | .exit => s.supervisor.child.map fun _ => { s with supervisor := s.supervisor.noticeExit }
  | .leaveGhost => s.supervisor.child.map fun g => { s with ghost := some g }
  | .ghostWrite p data => s.ghost.map fun g =>
    { s with supervisor := s.supervisor.takeChunk g p data now }

/-- The current snapshot. -/
def snapshot (s : Scene) : Snapshot := s.supervisor.store.current

end Scene

end WarmCheck.Checker

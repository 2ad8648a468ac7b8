import WarmCheck.Checker

/-!
# The tasks of a daemon

A daemon consists of tasks that go on side by side: up to three watchers, the status server and the
supervisor. Two of the watchers ask the supervisor for restarts, through a queue with little room. When
a shutdown is asked for, or some task ends, each task ends as soon as it notices. A task may also end by
itself, well or not.

* `TaskEnd`, `firstFailure?`: how tasks end, and what is made of it.
* `Tasks.step`: everything that the tasks can do, in any order that the queue allows.
* `Tasks.isOver`, `Tasks.ends`: whether all of them have ended, and how.
-/

namespace WarmCheck.Daemon

/-- The tasks. -/
inductive TaskName where
  | routeWatcher
  | headWatcher
  | bigChangesWatcher
  | statusServer
  | supervisor
  deriving DecidableEq, Repr

/-- The tasks that watch, in the order in which they are started. -/
def watcherNames : List TaskName := [.routeWatcher, .headWatcher, .bigChangesWatcher]

/-- The name of a task in messages. -/
def TaskName.text : TaskName → String
  | routeWatcher => "route_watcher"
  | headWatcher => "head_watcher"
  | bigChangesWatcher => "big_changes_watcher"
  | statusServer => "status_server"
  | supervisor => "supervisor"

/-- How a task ends. -/
inductive TaskEnd where
  | finished
  | failed (failure : Failure)
  /-- The task broke down, with what was said about it. -/
  | broken (text : String)
  deriving DecidableEq, Repr

/-- Whether a task that ends like this asks the others to end. -/
def TaskEnd.asks : TaskEnd → Bool
  | finished | failed _ => true
  | broken _ => false

/-- What is wrong about the end of a task. -/
def TaskEnd.failure? (t : TaskName) : TaskEnd → Option Failure
  | finished => none
  | failed failure => some failure
  | broken text => some (.protocol (t.text ++ " task join failure: " ++ text))

/-- What is wrong about the first task that did not end well. -/
def firstFailure? (ends : List (TaskName × TaskEnd)) : Option Failure :=
  ends.findSome? fun (t, e) => e.failure? t

/-- The state of a watcher. -/
inductive WatcherState where
  | watching
  /-- It asks for a restart and waits for room in the queue. -/
  | asking
  | ended (e : TaskEnd)
  deriving DecidableEq, Repr

/-- How a watcher has ended, if it has. -/
def WatcherState.end? : WatcherState → Option TaskEnd
  | watching | asking => none
  | ended e => some e

/-- The state of the server or of the supervisor. -/
inductive ServiceState where
  | running
  | ended (e : TaskEnd)
  deriving DecidableEq, Repr

/-- How the server or the supervisor has ended, if it has. -/
def ServiceState.end? : ServiceState → Option TaskEnd
  | running => none
  | ended e => some e

/-- The tasks of a daemon: whether it has been asked to shut down, its watchers in order, the server
once there is one, the supervisor with its checker, and the number of restarts in the queue. -/
structure Tasks where
  isAsked : Bool := false
  watchers : List (TaskName × WatcherState) := []
  server : Option ServiceState := none
  supervisor : ServiceState := .running
  scene : Checker.Scene
  queued : Nat := 0
  deriving DecidableEq, Repr

namespace Tasks

/-- The number of restarts for which there is room in the queue. -/
def queueSize : Nat := 16

/-- The tasks of a daemon that starts: the watchers that there are, and the supervisor with its checker. -/
def begin (has : TaskName → Bool) (startable : Bool) (now : UInt64) : Tasks where
  watchers := (watcherNames.filter has).map (·, .watching)
  scene := .begin startable now

/-- The state of a watcher. -/
def watcher? (s : Tasks) (t : TaskName) : Option WatcherState := s.watchers.lookup t

/-- With another state of a watcher. -/
def setWatcher (s : Tasks) (t : TaskName) (state : WatcherState) : Tasks :=
  { s with watchers := s.watchers.map fun (u, old) => if u = t then (u, state) else (u, old) }

/-- All tasks, in the order in which a daemon waits for them. -/
def names (s : Tasks) : List TaskName :=
  s.watchers.map (·.1) ++ (s.server.map fun _ => TaskName.statusServer).toList ++ [.supervisor]

/-- How a task has ended, if it has. -/
def end? (s : Tasks) : TaskName → Option TaskEnd
  | .supervisor => s.supervisor.end?
  | .statusServer => s.server.bind ServiceState.end?
  | t => (s.watcher? t).bind WatcherState.end?

/-- What the tasks can do. -/
inductive Step where
  /-- A shutdown is asked for. -/
  | ask
  /-- A watcher gets a batch, which calls for a restart or does not. -/
  | batch (t : TaskName) (calls : Bool)
  /-- A watcher that asks for a restart puts it into the queue, or finds that nobody will read it. -/
  | enqueue (t : TaskName)
  /-- The supervisor takes a restart from the queue, and the program can be started or not. -/
  | restart (startable : Bool) (now : UInt64)
  /-- Something that a process of the checker does reaches the supervisor. -/
  | act (a : Checker.Act) (now : UInt64)
  /-- A task notices that it has to end. -/
  | finish (t : TaskName)
  /-- A task ends by itself, in whatever way. -/
  | quit (t : TaskName) (e : TaskEnd)
  deriving DecidableEq, Repr

/-- A watcher gets a batch. -/
def batch (s : Tasks) (t : TaskName) (calls : Bool) : Option Tasks :=
  match s.watcher? t with
  | some .watching => some (if calls then s.setWatcher t .asking else s)
  | _ => none

/-- A watcher that asks for a restart goes on. The end of any task asks the others to end. -/
def enqueue (s : Tasks) (t : TaskName) : Option Tasks :=
  match s.watcher? t, s.supervisor with
  | some .asking, .running =>
    if s.queued < queueSize then some { s.setWatcher t .watching with queued := s.queued + 1 }
    else none
  | some .asking, .ended _ =>
    some { s.setWatcher t (.ended (.failed .restartQueueClosed)) with isAsked := true }
  | _, _ => none

/-- The supervisor takes a restart from the queue. -/
def restart (s : Tasks) (startable : Bool) (now : UInt64) : Option Tasks :=
  match s.supervisor with
  | .running =>
    if 0 < s.queued then
      some { s with queued := s.queued - 1, scene := { s.scene with startable }.restart now }
    else none
  | .ended _ => none

/-- A task that waits notices that it has to end. -/
def finish (s : Tasks) (t : TaskName) : Option Tasks :=
  if !s.isAsked then none
  else
    match t with
    | .supervisor =>
      match s.supervisor with
      | .running => some { s with supervisor := .ended .finished, scene := s.scene.stop }
      | .ended _ => none
    | .statusServer =>
      match s.server with
      | some .running => some { s with server := some (.ended .finished) }
      | _ => none
    | t =>
      match s.watcher? t with
      | some .watching => some (s.setWatcher t (.ended .finished))
      | _ => none

/-- A task ends by itself. The supervisor has not come to kill its checker then. -/
def quit (s : Tasks) (t : TaskName) (e : TaskEnd) : Option Tasks :=
  if t ∈ s.names ∧ s.end? t = none then
    let s := { s with isAsked := s.isAsked || e.asks }
    match t with
    | .supervisor => some { s with supervisor := .ended e, scene := s.scene.drop }
    | .statusServer => some { s with server := some (.ended e) }
    | t => some (s.setWatcher t (.ended e))
  else none

/-- One thing that the tasks do; `none` if they cannot do it now. -/
def step (s : Tasks) : Step → Option Tasks
  | .ask => some { s with isAsked := true }
  | .batch t calls => s.batch t calls
  | .enqueue t => s.enqueue t
  | .restart startable now => s.restart startable now
  | .act a now =>
    match s.supervisor with
    | .running => (s.scene.act? now a).map fun scene => { s with scene }
    | .ended _ => none
  | .finish t => s.finish t
  | .quit t e => s.quit t e

/-- Things that the tasks do one after the other. What they cannot do is passed over. -/
def run (s : Tasks) (steps : List Step) : Tasks := steps.foldl (fun s i => (s.step i).getD s) s

/-- A watcher gets a batch that calls for a restart, asks for it, and the supervisor restarts the checker. -/
def request (s : Tasks) (t : TaskName) (startable : Bool) (now : UInt64) : Tasks :=
  s.run [.batch t true, .enqueue t, .restart startable now]

/-! ## The end -/

/-- Whether all tasks have ended. -/
def isOver (s : Tasks) : Bool := s.names.all fun t => (s.end? t).isSome

/-- The ends of the tasks that have ended, in the order in which a daemon waits for them. -/
def ends (s : Tasks) : List (TaskName × TaskEnd) := s.names.filterMap fun t => (s.end? t).map (t, ·)

/-- A shutdown that every task notices at once. Watchers that still ask for a restart find nobody who reads
what they ask for. -/
def shutdown (s : Tasks) : Tasks := s.run (.ask :: (s.names.map .finish ++ s.names.map .enqueue))

end Tasks

end WarmCheck.Daemon

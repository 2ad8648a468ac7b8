import WarmCheck.Daemon.Lifecycle
import WarmCheck.Launch
import WarmCheck.Query
import WarmCheck.Watch.Reaction
import WarmCheck.Watch.Watcher

/-!
# A daemon at work

A daemon on a disk, with everything that it reacts to. What people and tools do to the disk comes in
bursts; after each of them every window and every delay is left to run out. Nothing else takes time, so
what the daemon itself does to the disk when it begins is part of the first burst.

* `Session.start`: a daemon is started, and serves or does not.
* `Session.burst`, `Session.act?`, `Session.query`: what happens while it serves.
* `Session.stop`: it is asked to end.
-/

namespace WarmCheck.Daemon

open Watch

/-- A daemon that serves: the disk around it, its watchers with what they remember, the touches that no
window has run out for yet, the number of sync runs, and the time in milliseconds. -/
structure Session where
  disk : Disk
  env : Environment
  config : Config
  daemon : Instance
  routes : Option Watcher := none
  head : Option (Path × Watcher) := none
  bigChanges : Option (KnownFiles × Watcher) := none
  debouncer : Debouncer := { delay := Reaction.routeDelay }
  pending : List Touch := []
  syncs : Nat := 0
  now : Nat := 0

namespace Session

/-- The workspace of the daemon. -/
def workspace (s : Session) : Workspace := .of s.config.root s.env

/-- The time for the store. -/
def stamp (s : Session) : UInt64 := UInt64.ofNat s.now

/-- Whether the checker can be started. -/
def canLaunch (d : Disk) (env : Environment) (c : Config) : Bool :=
  Launch.canStart d env c.checker c.root c.watchArgs

/-! ## Starting -/

/-- The watcher of the directory of the head file. -/
def headWatcher? (d : Disk) (root : Path) : Option (Path × Watcher) := do
  let head ← Head.find? d root
  let w ← Watcher.start d false (← head.parent?)
  return (head, w)

/-- The watcher of the directory in which many files may vanish, with the files that are in it. -/
def bigChangesWatcher? (d : Disk) (dir : Path) : Option (KnownFiles × Watcher) := do
  let dir ← (d.canonical dir).toOption
  let w ← Watcher.start d true dir
  let known ← (KnownFiles.scan d dir).toOption
  return (known, w)

/-- Whether there is a watcher. -/
def hasWatcher (s : Session) : TaskName → Bool
  | .routeWatcher => s.routes.isSome
  | .headWatcher => s.head.isSome
  | .bigChangesWatcher => s.bigChanges.isSome
  | .statusServer | .supervisor => false

/-- The tasks that a daemon starts. -/
def launched (s : Session) : Tasks := .begin s.hasWatcher (canLaunch s.disk s.env s.config) s.stamp

/-- The daemon and the disk after the steps of the daemon up to a stage at which it pauses. -/
def advance (s : Session) (pauses : Stage → Bool) : Session :=
  let old := Artifacts.ofDisk s.disk s.workspace
  let (new, daemon) := s.daemon.runTo pauses s.workspace s.launched old
  { s with disk := Artifacts.store old new s.workspace s.disk, daemon }

/-- The watchers of the disk as it is. -/
def watch (s : Session) : Session :=
  { s with
    routes := Watcher.start s.disk true s.config.root
    head := headWatcher? s.disk s.config.root
    bigChanges := s.config.bigChangesDir.bind (bigChangesWatcher? s.disk) }

/-- The disk with the cache directory, which may be impossible. -/
def withCache (s : Session) : Session × Except Fault Unit :=
  match s.disk.createDirs s.workspace.cache with
  | .ok disk => ({ s with disk }, .ok ())
  | .error fault => (s, .error fault)

/-! ## Reacting -/

/-- The tasks after they have done something. -/
def mapTasks (s : Session) (f : Tasks → Tasks) : Session :=
  { s with daemon := { s.daemon with tasks := s.daemon.tasks.map f } }

/-- A watcher has got a batch that calls for a restart. -/
def callRestart (s : Session) (t : TaskName) : Session :=
  s.mapTasks (·.request t (canLaunch s.disk s.env s.config) s.stamp)

/-- The route watcher puts the sync run off. -/
def noticeRoutes (s : Session) (ts : List Touch) : Session :=
  match s.routes with
  | none => s
  | some w =>
    let (w, events) := w.notice s.disk ts
    { s with
      routes := some w
      debouncer := Reaction.putOff s.debouncer s.now events }

/-- The head watcher asks for a restart for every batch about the head. -/
def noticeHead (s : Session) (ts : List Touch) : Session :=
  match s.head with
  | none => s
  | some (head, w) =>
    let (w, events) := w.notice s.disk ts
    let moves := (Reaction.batchesAt s.now events).filter (Reaction.movesHead head)
    moves.foldl (fun s _ => s.callRestart .headWatcher) { s with head := some (head, w) }

/-- The watcher for big changes asks for a restart for every batch in which known files vanish. -/
def noticeBigChanges (s : Session) (ts : List Touch) : Session :=
  match s.bigChanges with
  | none => s
  | some (known, w) =>
    let (w, events) := w.notice s.disk ts
    let (known, losses) := Reaction.reconcileAll s.disk known (Reaction.batchesAt s.now events)
    (losses.filter id).foldl (fun s _ => s.callRestart .bigChangesWatcher)
      { s with bigChanges := some (known, w) }

/-- All windows and delays run out. A sync run takes place if its tool can be started. -/
def settle (s : Session) : Session :=
  let now := s.now + 2 * (Reaction.settleWindow + Reaction.routeDelay)
  let (debouncer, log) := s.debouncer.advance now
  let runs := if Launch.canStart s.disk s.env s.config.syncTool s.config.root Config.syncArgs then
    (log.filter fun e => match e with | .start .. => true | .finish .. => false).length else 0
  { s with debouncer, now, syncs := s.syncs + runs }

/-- The watchers are told of touches that follow one another closely, and every window runs out. -/
def notice (s : Session) (ts : List Touch) : Session :=
  let ts := s.pending ++ ts
  ((({ s with pending := [] }.noticeRoutes ts).noticeHead ts).noticeBigChanges ts).settle

/-! ## The whole -/

/-- A daemon is started at a time; it serves, or the disk is left like this. -/
def start (d : Disk) (env : Environment) (c : Config) (pid now : Nat) :
    Disk × Except Failure Session :=
  let s : Session := { disk := d, env, config := c, daemon := { pid }, now }
  match s.withCache with
  | (s, .error fault) => (s.disk, .error (.io s.workspace.cache fault))
  | (s, .ok _) =>
    let s := (s.advance (· = .launch)).watch
    let before := s.disk
    let s := s.advance fun _ => false
    match s.daemon.stage with
    | .ended (.refused failure) => (s.disk, .error failure)
    | _ =>
      let own := before.createdAlong s.disk s.workspace.endpoint ++
        s.disk.touchAt s.workspace.endpoint .marked
      (s.disk, .ok { s with pending := own })

/-- Things that people and tools do to the disk, one right after the other. -/
def burst (s : Session) (as : List Disk.Action) : Session :=
  let (disk, ts) := as.foldl (fun (d, ts) a => (d.actOrStay a, ts ++ d.touches a)) (s.disk, [])
  { s with disk }.notice ts

/-- Something that a process of the checker does; `none` if there is no such process. -/
def act? (s : Session) (a : Checker.Act) : Option Session :=
  (s.daemon.tasks.bind (·.step (.act a s.stamp))).map fun tasks => s.mapTasks fun _ => tasks

/-- The current snapshot. -/
def snapshot (s : Session) : Snapshot :=
  match s.daemon.tasks with
  | some tasks => tasks.scene.snapshot
  | none => .blank 0

/-- The number of checkers started so far. -/
def runs (s : Session) : Nat :=
  match s.daemon.tasks with
  | some tasks => tasks.scene.runs
  | none => 0

/-- The other side of a connection to a path, if somebody answers there. -/
def peer? (s : Session) (socket : Path) : Option Query.Peer :=
  match s.disk.connect socket with
  | .ok pid =>
    if pid = s.daemon.pid ∧ s.daemon.isListening then some (.reply s.snapshot.encode) else none
  | .error _ => none

/-- A query at the endpoint. -/
def query (s : Session) : Option Snapshot :=
  (Query.result Query.timeLimit (s.peer? s.workspace.endpoint)).snapshot

/-- The daemon is asked to end, its tasks end, and it releases what it has claimed. -/
def stop (s : Session) : Session :=
  let s := s.mapTasks Tasks.shutdown
  { s with daemon := s.daemon.wait }.advance fun _ => false

/-- How the daemon has ended, if it has. -/
def ending? (s : Session) : Option Ending :=
  match s.daemon.stage with
  | .ended ending => some ending
  | _ => none

end Session

end WarmCheck.Daemon

import WarmCheck.Daemon.Artifacts
import WarmCheck.Daemon.Tasks

/-!
# The life of a daemon

A daemon claims its artifacts, launches the checker and listens; when it ends, it releases what it has
claimed. It does so step by step, and the steps of daemons of one workspace may interleave.

* `Stage`, `Instance`: how far a daemon has come.
* `Instance.step`: its next step; `Instance.wait`: it waits for its tasks to end.
* `Instance.runTo`: its steps while no other daemon does anything; `isRest_runTo`: it comes to a point
  where it serves or is over.
-/

namespace WarmCheck.Daemon

/-- How the life of a daemon ends. -/
inductive Ending where
  /-- It has not come to serve. -/
  | refused (failure : Failure)
  /-- It has served, and this is wrong about its tasks. -/
  | stopped (failure : Option Failure)
  deriving DecidableEq, Repr

/-- What a daemon does next. -/
inductive Stage where
  /-- Make the cache directory. -/
  | prepare
  /-- See whether something is at the endpoint. -/
  | probe
  /-- See whether it answers. -/
  | connect
  | clearEndpoint
  | clearMarker
  /-- Open an empty marker. -/
  | openMarker
  | writeMarker
  /-- Start the tasks, the server apart. -/
  | launch
  /-- Put a socket at the endpoint. -/
  | bind
  /-- Listen there. -/
  | listen
  /-- Keep others away from the endpoint. -/
  | protect
  | serve
  /-- Wait for the tasks to end. -/
  | endTasks (ending : Ending)
  | releaseEndpoint (ending : Ending)
  /-- See whether the marker names another daemon. -/
  | readMarker (ending : Ending)
  | releaseMarker (ending : Ending)
  | ended (ending : Ending)
  deriving DecidableEq, Repr

namespace Stage

/-- Whether the daemon makes no further step by itself. -/
def isRest : Stage → Bool
  | serve | ended _ => true
  | _ => false

/-- The number of steps that are left, at most. -/
def rank : Stage → Nat
  | prepare => 15
  | probe => 14
  | connect => 13
  | clearEndpoint => 12
  | clearMarker => 11
  | openMarker => 10
  | writeMarker => 9
  | launch => 8
  | bind => 7
  | listen => 6
  | protect => 5
  | endTasks _ => 4
  | releaseEndpoint _ => 3
  | readMarker _ => 2
  | releaseMarker _ => 1
  | serve | ended _ => 0

end Stage

/-- A daemon: its process, how far it has come, its tasks, and whether it listens. -/
structure Instance where
  pid : Nat
  stage : Stage := .prepare
  tasks : Option Tasks := none
  isListening : Bool := false
  deriving DecidableEq, Repr

namespace Instance

/-- At another stage. -/
def moveTo (i : Instance) (stage : Stage) : Instance := { i with stage }

/-- The end of the tasks: nobody listens any more. A daemon that has served has waited for them, and releases
its endpoint; else it asks them to end now, and the endpoint was never its own. -/
def endTasks (a : Artifacts) (i : Instance) (ending : Ending) : Artifacts × Instance :=
  ({ a with endpoint := if i.isListening then a.endpoint.close i.pid else a.endpoint },
    { i with
      stage := match ending with
        | .stopped _ => .releaseEndpoint ending
        | .refused _ => .readMarker ending
      tasks := match ending with
        | .stopped _ => i.tasks
        | .refused _ => i.tasks.map Tasks.shutdown
      isListening := false })

/-- The next step. `launch` makes the tasks that are started. -/
def step (w : Workspace) (launch : Tasks) (a : Artifacts) (i : Instance) : Artifacts × Instance :=
  match i.stage with
  | .prepare =>
    match a.cache with
    | .ok _ => (a, i.moveTo .probe)
    | .error fault => (a, i.moveTo (.ended (.refused (.io w.cache fault))))
  | .probe => (a, i.moveTo (if a.endpoint.reaches then .connect else .clearMarker))
  | .connect =>
    match a.answering? with
    | some _ => (a, i.moveTo (.ended (.refused (.alreadyRunning w.endpoint))))
    | none => (a, i.moveTo .clearEndpoint)
  | .clearEndpoint => ({ a with endpoint := a.endpoint.unlink }, i.moveTo .clearMarker)
  | .clearMarker => ({ a with marker := a.marker.unlink }, i.moveTo .openMarker)
  | .openMarker =>
    match a.marker.create i.pid with
    | .ok marker => ({ a with marker }, i.moveTo .writeMarker)
    | .error fault => (a, i.moveTo (.ended (.refused (.io w.marker fault))))
  | .writeMarker =>
    ({ a with marker := a.marker.write i.pid (Marker.contentOf i.pid) }, i.moveTo .launch)
  | .launch => (a, { i with stage := .bind, tasks := some launch })
  | .bind =>
    match a.bind i.pid with
    | .ok a => (a, i.moveTo .listen)
    | .error fault => (a, i.moveTo (.endTasks (.refused (.bind w.endpoint fault))))
  | .listen =>
    ({ a with endpoint := a.endpoint.listen i.pid }, { i with stage := .protect, isListening := true })
  | .protect =>
    match a.endpoint.protect with
    | .ok _ =>
      (a, { i with
        stage := .serve
        tasks := i.tasks.map fun tasks => { tasks with server := some .running } })
    | .error fault => (a, i.moveTo (.endTasks (.refused (.io w.endpoint fault))))
  | .serve | .ended _ => (a, i)
  | .endTasks ending => endTasks a i ending
  | .releaseEndpoint ending =>
    ({ a with endpoint := a.endpoint.unlink }, i.moveTo (.readMarker ending))
  | .readMarker ending =>
    (a, i.moveTo (if a.isForeign i.pid then .ended ending else .releaseMarker ending))
  | .releaseMarker ending => ({ a with marker := a.marker.unlink }, i.moveTo (.ended ending))

/-- A daemon that serves waits for its tasks. Once all of them have ended, it ends with what is wrong about
the first that did not end well. -/
def wait (i : Instance) : Instance :=
  match i.stage, i.tasks with
  | .serve, some tasks => if tasks.isOver then i.moveTo (.endTasks (.stopped (firstFailure? tasks.ends))) else i
  | _, _ => i

theorem step_of_isRest {i : Instance} (h : i.stage.isRest = true) (w : Workspace) (launch : Tasks)
    (a : Artifacts) : i.step w launch a = (a, i) := by
  obtain ⟨pid, stage, tasks, isListening⟩ := i
  cases stage <;> first | rfl | cases h

theorem rank_step_lt {i : Instance} (h : i.stage.isRest = false) (w : Workspace) (launch : Tasks)
    (a : Artifacts) : (i.step w launch a).2.stage.rank < i.stage.rank := by
  obtain ⟨pid, stage, tasks, isListening⟩ := i
  cases stage with
  | serve | ended => cases h
  | clearEndpoint | clearMarker | writeMarker | launch | listen | releaseEndpoint | releaseMarker =>
    simp [step, moveTo, Stage.rank]
  | prepare | connect | openMarker | bind | protect =>
    simp only [step]
    split <;> simp [moveTo, Stage.rank]
  | probe | readMarker =>
    simp only [step, moveTo]
    split <;> simp [Stage.rank]
  | endTasks ending => cases ending <;> simp [step, endTasks, Stage.rank]

/-- At most `n` steps, up to a stage at which the daemon pauses. -/
def steps (w : Workspace) (launch : Tasks) (pauses : Stage → Bool) :
    Nat → Artifacts → Instance → Artifacts × Instance
  | 0, a, i => (a, i)
  | n + 1, a, i =>
    if pauses i.stage then (a, i)
    else
      let (a, i) := i.step w launch a
      steps w launch pauses n a i

/-- All steps up to a stage at which the daemon pauses, or serves, or is over. -/
def runTo (pauses : Stage → Bool) (w : Workspace) (launch : Tasks) (a : Artifacts) (i : Instance) :
    Artifacts × Instance :=
  steps w launch pauses i.stage.rank a i

theorem steps_succ (w : Workspace) (launch : Tasks) (n : Nat) (a : Artifacts) (i : Instance) :
    steps w launch (fun _ => false) (n + 1) a i =
      steps w launch (fun _ => false) n (i.step w launch a).1 (i.step w launch a).2 := rfl

theorem isRest_steps (w : Workspace) (launch : Tasks) (n : Nat) (a : Artifacts) (i : Instance)
    (h : i.stage.rank ≤ n) : (steps w launch (fun _ => false) n a i).2.stage.isRest = true := by
  induction n generalizing a i with
  | zero =>
    rw [steps]
    cases hs : i.stage <;> simp_all [Stage.rank, Stage.isRest]
  | succ n ih =>
    rw [steps_succ]
    refine ih _ _ ?_
    cases hr : i.stage.isRest with
    | true =>
      rw [step_of_isRest hr]
      cases hs : i.stage <;> simp_all [Stage.rank, Stage.isRest]
    | false => exact Nat.le_of_lt_succ (Nat.lt_of_lt_of_le (rank_step_lt hr w launch a) h)

/-- **A daemon that is left alone comes to serve, or is over.** -/
theorem isRest_runTo (w : Workspace) (launch : Tasks) (a : Artifacts) (i : Instance) :
    (runTo (fun _ => false) w launch a i).2.stage.isRest = true :=
  isRest_steps w launch _ a i (Nat.le_refl _)

end Instance

end WarmCheck.Daemon

/-!
# Debouncing

A task that is put off until a delay passes in which it is not put off again. Only the waiting can be
called off; a task that has begun runs to its end, unless everything is stopped.

Delays and tasks are jobs. Each has a number, by which it can be called off as long as it lasts. The
debouncer knows the numbers of the last delay and of the tasks that it has begun.

* `Debouncer.schedule`, `Debouncer.cancel`, `Debouncer.stop`, `Debouncer.replace`: what can be asked for.
* `Debouncer.advance`: time passes.
-/

namespace WarmCheck

/-- Something to do, and how long it takes. -/
structure Task where
  id : String
  length : Nat
  deriving DecidableEq, Repr

/-- A beginning or an end of a task. -/
inductive TaskEvent where
  | start (id : String) (time : Nat)
  | finish (id : String) (time : Nat)
  deriving DecidableEq, Repr

namespace TaskEvent

/-- When it happened. -/
def time : TaskEvent → Nat
  | start _ t | finish _ t => t

end TaskEvent

/-- A delay before a task, or the task itself, with the time at which it is over. -/
structure Job where
  number : Nat
  task : Task
  due : Nat
  deriving DecidableEq, Repr

/-- What a debouncer knows of its jobs, and the jobs that are under way. -/
structure Debouncer where
  delay : Nat
  /-- The delay that was begun last, unless it has been called off. It may be over. -/
  pending : Option Nat := none
  /-- The tasks that have begun. Those that have ended are dropped when another one begins. -/
  fired : List Nat := []
  delays : List Job := []
  running : List Job := []
  /-- The number for the next job. -/
  nextJob : Nat := 0
  deriving DecidableEq, Repr

namespace Debouncer

/-- Call off the task that waits. -/
def cancel (d : Debouncer) : Debouncer :=
  { d with
    pending := none
    delays := d.delays.filter fun j => d.pending ≠ some j.number }

/-- Put a task off by the delay, in the place of the one that waits. -/
def schedule (d : Debouncer) (now : Nat) (t : Task) : Debouncer :=
  let d := d.cancel
  { d with
    pending := some d.nextJob
    delays := d.delays ++ [⟨d.nextJob, t, now + d.delay⟩]
    nextJob := d.nextJob + 1 }

/-- Call off the task that waits and stop those that run. -/
def stop (d : Debouncer) : Debouncer :=
  let d := d.cancel
  { d with
    fired := []
    running := d.running.filter fun j => j.number ∉ d.fired }

/-- Another debouncer with the same delay, which knows of no job. This one is stopped as it goes. -/
def replace (d : Debouncer) : Debouncer := { d.stop with pending := none, fired := [] }

/-- Whether a task waits. -/
def isPending (d : Debouncer) : Bool := d.delays.any fun j => d.pending = some j.number

/-- A delay is over, and its task begins. -/
def beginOne (d : Debouncer) (j : Job) : Debouncer × TaskEvent :=
  let alive := d.fired.filter fun n => d.running.any fun r => r.number = n ∧ j.due < r.due
  ({ d with
    fired := alive ++ [d.nextJob]
    running := d.running ++ [⟨d.nextJob, j.task, j.due + j.task.length⟩]
    nextJob := d.nextJob + 1 }, .start j.task.id j.due)

/-- Delays are over, one after the other. -/
def beginAll (d : Debouncer) : List Job → Debouncer × List TaskEvent
  | [] => (d, [])
  | j :: js =>
    let (d, e) := d.beginOne j
    let (d, es) := d.beginAll js
    (d, e :: es)

/-- The tasks begin whose delays are over by `deadline`. -/
def fire (d : Debouncer) (deadline : Nat) : Debouncer × List TaskEvent :=
  { d with delays := d.delays.filter (deadline < ·.due) }.beginAll (d.delays.filter (·.due ≤ deadline))

/-- The tasks that run end if it is their time by `deadline`. -/
def retire (d : Debouncer) (deadline : Nat) : Debouncer × List TaskEvent :=
  ({ d with running := d.running.filter (deadline < ·.due) },
    (d.running.filter (·.due ≤ deadline)).map fun j => .finish j.task.id j.due)

/-- Time passes up to `deadline`. What begins and ends is told in the order of time. -/
def advance (d : Debouncer) (deadline : Nat) : Debouncer × List TaskEvent :=
  let (d, starts) := d.fire deadline
  let (d, ends) := d.retire deadline
  (d, (starts ++ ends).mergeSort fun a b => a.time ≤ b.time)

end Debouncer

end WarmCheck

import WarmCheck.Daemon.Tasks
import WarmCheck.Watch.Reaction

/-!
# Watchers that ask for restarts

Two watchers get batches of events, and ask the supervisor for a restart after those that call for one. The supervisor
restarts the checker for one request after the other, which takes time.

* `Scenario`: what the watchers are told, and what they judge it by; `Scenario.judge`: what they make of a batch.
* `Desk`: what a watcher is still to receive, and what it has got.
* `Relay.step`: what the watchers and the supervisor do, and the passing of time.
-/

namespace WarmCheck.Daemon

open Watch

/-- The watchers that ask for restarts. -/
inductive Asker where
  | head
  | bigChanges
  deriving DecidableEq, Repr

namespace Asker

def task : Asker → TaskName
  | head => .headWatcher
  | bigChanges => .bigChangesWatcher

def other : Asker → Asker
  | head => bigChanges
  | bigChanges => head

/-- A number for both watchers together. -/
def both (f : Asker → Nat) : Nat := f head + f bigChanges

theorem forall_iff {p : Asker → Prop} : (∀ t, p t) ↔ p head ∧ p bigChanges :=
  ⟨fun h => ⟨h head, h bigChanges⟩, fun h t => by cases t <;> simp [h]⟩

instance {p : Asker → Prop} [DecidablePred p] : Decidable (∀ t, p t) := decidable_of_iff _ forall_iff.symm

end Asker

/-- What the watchers are told and when, and what they judge it by: the head file, the files known at first and the
disk at each time. -/
structure Scenario where
  timeline : Asker → List (Nat × Option Event)
  head : Path
  known : KnownFiles
  disk : Nat → Disk
  isTimed : ∀ t, (timeline t).Pairwise (·.1 ≤ ·.1)
  isOrdered : known.IsOrdered

namespace Scenario

variable (sc : Scenario)

/-- What is known after a batch, and whether it calls for a restart. -/
def judge : Asker → KnownFiles → Batch Event → KnownFiles × Bool
  | .head, k, b => (k, Reaction.movesHead sc.head b.events)
  | .bigChanges, k, b => Reaction.reconcile (sc.disk b.time) k b.events

/-- What is known after batches, and which of them call for a restart. -/
def judgeAll (t : Asker) (k : KnownFiles) : List (Batch Event) → KnownFiles × List Bool
  | [] => (k, [])
  | b :: bs =>
    let (k, verdict) := sc.judge t k b
    let (k, verdicts) := judgeAll t k bs
    (k, verdict :: verdicts)

/-- What a watcher knows after batches. -/
def knownAfter (t : Asker) (bs : List (Batch Event)) : KnownFiles := (sc.judgeAll t sc.known bs).1

/-- The number of batches that call for a restart. -/
def qualifying (t : Asker) (bs : List (Batch Event)) : Nat := (sc.judgeAll t sc.known bs).2.count true

end Scenario

/-! ## Desks -/

/-- What a watcher is still to receive, when it last asked for a batch, the batches that it has got, and whether it
has waited for room in the queue. -/
structure Desk where
  items : List (Nat × Option Event)
  since : Nat := 0
  batches : List (Batch Event) := []
  hasWaited : Bool := false

namespace Desk

/-- The next batch, and what is left after it. The source stays open. -/
def next? (d : Desk) : Option (Batch Event × List (Nat × Option Event)) :=
  ((Feed.lasting Reaction.settleWindow d.since d.items).next Reaction.settleWindow d.since).map fun (b, f) =>
    (b, f.items)

/-- With a batch. -/
def get (d : Desk) (b : Batch Event) (left : List (Nat × Option Event)) (now : Nat) : Desk :=
  { d with items := left, since := now, batches := d.batches ++ [b] }

end Desk

/-! ## The whole -/

/-- The tasks, the files that are known, the desks of the watchers, the time, whether a restart is under way, and the
number of restarts so far. -/
structure Relay where
  tasks : Tasks
  known : KnownFiles
  desks : Asker → Desk
  now : Nat := 0
  isRestarting : Bool := false
  restarts : Nat := 0

namespace Relay

variable (sc : Scenario)

/-- The watchers begin when the checker has been started. -/
def start (startable : Bool) (stamp : UInt64) : Relay where
  tasks := .begin (fun _ => true) startable stamp
  known := sc.known
  desks t := { items := sc.timeline t }

/-- Whether a watcher asks for a restart, and has not got its request into the queue yet. -/
def isAsking (s : Relay) (t : Asker) : Bool := s.tasks.watcher? t.task == some .asking

/-- Whether a watcher has nothing to do before a time: no batch of its own is due before that, or it asks for a
restart and there is no room. -/
def isIdleUntil (s : Relay) (later : Nat) (t : Asker) : Bool :=
  if s.isAsking t then s.tasks.queued = Tasks.queueSize
  else (s.desks t).next?.all fun (b, _) => later ≤ b.time

/-- What can happen to the watchers and the supervisor. -/
inductive Step where
  /-- Time passes in which no watcher has anything to do. -/
  | pass (later : Nat)
  /-- A watcher gets the batch that is due, and judges it. -/
  | collect (t : Asker)
  /-- A request gets into the queue, and the watcher asks for its next batch. -/
  | enqueue (t : Asker)
  /-- The supervisor takes a request, and a restart is under way. -/
  | take (startable : Bool) (stamp : UInt64)
  /-- The restart is over. -/
  | restarted
  /-- Something that a process of the checker does. -/
  | act (a : Checker.Act) (stamp : UInt64)

/-- Time passes. Who asks for a restart meanwhile has waited. -/
def pass (s : Relay) (later : Nat) : Relay :=
  { s with
    now := later
    desks t := { s.desks t with hasWaited := (s.desks t).hasWaited || (s.isAsking t && decide (s.now < later)) } }

/-- With another desk of a watcher. -/
def setDesk (s : Relay) (t : Asker) (d : Desk) : Relay := { s with desks u := if u = t then d else s.desks u }

/-- A watcher gets a batch. -/
def collect (s : Relay) (t : Asker) (b : Batch Event) (left : List (Nat × Option Event)) : Option Relay :=
  let judged := sc.judge t s.known b
  (s.tasks.batch t.task judged.2).map fun tasks =>
    { s with tasks, known := judged.1 }.setDesk t ((s.desks t).get b left s.now)

/-- One thing that happens; `none` if it cannot happen now. -/
def step (s : Relay) : Step → Option Relay
  | .pass later => if s.now ≤ later ∧ ∀ t, s.isIdleUntil later t = true then some (s.pass later) else none
  | .collect t =>
    match (s.desks t).next? with
    | some (b, left) => if b.time = s.now then s.collect sc t b left else none
    | none => none
  | .enqueue t => (s.tasks.enqueue t.task).map fun tasks =>
    { s with tasks }.setDesk t { s.desks t with since := s.now }
  | .take startable stamp =>
    if s.isRestarting then none
    else (s.tasks.restart startable stamp).map fun tasks =>
      { s with tasks, isRestarting := true, restarts := s.restarts + 1 }
  | .restarted => if s.isRestarting then some { s with isRestarting := false } else none
  | .act a stamp =>
    if s.isRestarting then none
    else (s.tasks.step (.act a stamp)).map fun tasks => { s with tasks }

/-- Things that happen one after the other. What cannot happen is passed over. -/
def run (s : Relay) (steps : List Step) : Relay := steps.foldl (fun s i => (s.step sc i).getD s) s

/-- All that has been told is handled, and nobody waits for anything. -/
structure IsSettled (s : Relay) : Prop where
  items : ∀ t, (s.desks t).items = []
  asks : ∀ t, s.isAsking t = false
  queued : s.tasks.queued = 0
  idle : s.isRestarting = false

/-- The number of batches so far that call for a restart. -/
def qualifying (s : Relay) : Nat := Asker.both fun t => sc.qualifying t (s.desks t).batches

end Relay

end WarmCheck.Daemon

import WarmCheck.Cycle

/-!
# Snapshots

The snapshot is what clients are told: the result of the last finished cycle, and whether a cycle
is running. One store holds the snapshot that is current.

* `Snapshot.blank`, `Snapshot.afterStart`, `Snapshot.ofReport`: the snapshots of the transitions.
* `Store.publish`, `Store.Subscriber`: a store counts its transitions, so that a subscriber sees
  that there was one even where nothing differs.
-/

namespace WarmCheck

/-- The state of the workspace as clients see it. `lastUpdate` is the time of the last transition
in milliseconds. -/
structure Snapshot where
  output : String
  hasErrors : Bool
  hasWarnings : Bool
  isComplete : Bool
  lastUpdate : UInt64
  deriving DecidableEq, Repr

namespace Snapshot

/-- No result yet, and a cycle in progress. -/
def blank (now : UInt64) : Snapshot := ⟨"", false, false, false, now⟩

/-- A cycle has begun: the previous result stays until it finishes. -/
def afterStart (s : Snapshot) (now : UInt64) : Snapshot :=
  { s with isComplete := false, lastUpdate := now }

/-- The result of a finished cycle. -/
def ofReport (r : Report) (now : UInt64) : Snapshot :=
  ⟨r.output, 0 < r.errors, 0 < r.warnings, true, now⟩

end Snapshot

/-- A transition of the store. -/
inductive Transition where
  | started
  | committed (report : Report)
  | reset
  deriving DecidableEq, Repr

namespace Transition

/-- The snapshot after a transition. -/
def apply (t : Transition) (s : Snapshot) (now : UInt64) : Snapshot :=
  match t with
  | .started => s.afterStart now
  | .committed r => .ofReport r now
  | .reset => .blank now

/-- The transition that an event of the checker's output causes. -/
def ofEvent : CycleEvent → Transition
  | .started => .started
  | .finished r => .committed r

end Transition

/-- The current snapshot and the number of transitions that led to it. -/
structure Store where
  current : Snapshot
  version : Nat
  deriving DecidableEq, Repr

namespace Store

/-- A store in which nothing has happened. -/
def new (now : UInt64) : Store := ⟨.blank now, 0⟩

/-- Carry out a transition. -/
def publish (s : Store) (t : Transition) (now : UInt64) : Store :=
  ⟨t.apply s.current now, s.version + 1⟩

/-- Carry out transitions in order. -/
def publishAll (s : Store) (ts : List Transition) (now : UInt64) : Store :=
  ts.foldl (fun s t => s.publish t now) s

/-- One that follows the store, and the last version it has looked at. -/
structure Subscriber where
  seen : Nat
  deriving DecidableEq, Repr

/-- A new subscriber has seen all there is. -/
def subscribe (s : Store) : Subscriber := ⟨s.version⟩

/-- Whether there was a transition that the subscriber has not seen. -/
def hasNews (s : Store) (sub : Subscriber) : Bool := sub.seen != s.version

end Store

end WarmCheck

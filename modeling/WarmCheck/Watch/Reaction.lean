import WarmCheck.Debounce
import WarmCheck.Head
import WarmCheck.KnownFiles
import WarmCheck.Route
import WarmCheck.Watch.Batch

/-!
# Reactions to changes

What each of the three watchers makes of what it is told. The route watcher looks at every event by
itself; the others look at batches.

* `Reaction.wantsSync`: an event that asks for new route types.
* `Reaction.movesHead`: a batch after which the checker is restarted.
* `Reaction.reconcile`: a batch compared with the disk, and whether the checker is restarted.
-/

namespace WarmCheck.Watch.Reaction

/-- The time without events after which a batch is handed over, in milliseconds. -/
def settleWindow : Nat := 100

/-- The time without route events after which route types are brought up to date, in milliseconds. -/
def routeDelay : Nat := 250

/-- An event of more than access that is about a route file. -/
def wantsSync (e : Event) : Bool := e.isChange && e.paths.any Route.concerns

/-- A batch with an event of more than access that is about the head file. -/
def movesHead (head : Path) (batch : List Event) : Bool :=
  batch.any fun e => e.isChange && e.paths.any (Head.isHead head)

/-- A batch compared with the disk, and whether known files have vanished. -/
def reconcile (d : Disk) (k : KnownFiles) (batch : List Event) : KnownFiles × Bool :=
  let (k, removed) := k.applyBatch d batch
  (k, 0 < removed)

/-- Batches compared with the disk one after the other, and whether known files have vanished in
each. -/
def reconcileAll (d : Disk) (k : KnownFiles) : List (List Event) → KnownFiles × List Bool
  | [] => (k, [])
  | b :: bs =>
    let (k, lost) := reconcile d k b
    let (k, more) := reconcileAll d k bs
    (k, lost :: more)

/-- The batches of events that all come at `now`. -/
def batchesAt (now : Nat) (es : List Event) : List (List Event) :=
  ((Feed.batches settleWindow ⟨es.map fun e => (now, some e), now + 2 * settleWindow⟩ now).1).map
    (·.events)

/-- The route task put off for every event that asks for it. -/
def putOff (d : Debouncer) (now : Nat) (es : List Event) : Debouncer :=
  (es.filter wantsSync).foldl (fun d _ => d.schedule now ⟨"sync", 0⟩) d

end WarmCheck.Watch.Reaction

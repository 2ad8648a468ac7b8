import WarmCheck.Watch.Reaction

/-!
# The route watcher at work

The route watcher is told of events and of errors one by one, each at its time. It puts the sync run off for every
event that asks for it, and stops all runs when it is closed.

* `Routes.take`: what it makes of one event or error.
* `Routes.run`: what becomes of the sync runs in a time with many of them; `Routes.putOff_eq`: what it makes of events
  that come at one time.
-/

namespace WarmCheck.Watch.Routes

/-- Whether an event, and no error, asks for a sync run. -/
def asks (item : Option Event) : Bool := item.any Reaction.wantsSync

/-- An event may put the sync run off. -/
def take (sync : Task) (d : Debouncer) (now : Nat) (item : Option Event) : Debouncer :=
  if asks item then d.schedule now sync else d

/-- Events and errors at their times, and then the end, with what becomes of the sync runs. `sync` is the run that an
event at a time puts off. -/
def run (sync : Nat → Task) (close : Nat) (d : Debouncer) :
    List (Nat × Option Event) → Debouncer × List TaskEvent
  | [] =>
    let (d, past) := d.advance close
    (d.stop, past)
  | (now, item) :: items =>
    let (d, past) := d.advance now
    let (d, more) := run sync close (take (sync now) d now item) items
    (d, past ++ more)

/-- The route watcher makes of events that come at one time what it makes of them one by one. -/
theorem putOff_eq (d : Debouncer) (now : Nat) (es : List Event) :
    Reaction.putOff d now es = (es.map some).foldl (take ⟨"sync", 0⟩ · now) d := by
  rw [Reaction.putOff, List.foldl_filter, List.foldl_map]
  rfl

end WarmCheck.Watch.Routes

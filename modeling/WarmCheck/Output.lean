import WarmCheck.Cycle

/-!
# Checker output

The checker writes to two pipes. Each pipe has its own unfinished line, and the lines of both go to
one cycle in the order in which their newlines arrive.

* `Output.feed`: a chunk of a pipe.
* `Output.feedAll`: chunks one after the other.
-/

namespace WarmCheck

/-- The pipes of the checker. -/
inductive Pipe where
  | out
  | err
  deriving DecidableEq, Repr

/-- What has been read of the checker's output: the unfinished line of each pipe, and the cycle in
progress. -/
structure Output where
  outTail : Bytes := []
  errTail : Bytes := []
  cycle : Cycle := {}
  deriving DecidableEq, Repr

namespace Output

/-- The unfinished line of a pipe. -/
def tail (o : Output) : Pipe → Bytes
  | .out => o.outTail
  | .err => o.errTail

/-- With another unfinished line on a pipe. -/
def setTail (o : Output) (p : Pipe) (bs : Bytes) : Output :=
  match p with
  | .out => { o with outTail := bs }
  | .err => { o with errTail := bs }

/-- The newline octet. -/
def newline : UInt8 := 10

/-- The lines that octets complete: what stands before each newline. -/
def completed (bs : Bytes) : List Bytes := (List.splitOn newline bs).dropLast

/-- What follows the last newline. -/
def unfinished (bs : Bytes) : Bytes := (List.splitOn newline bs).getLast?.getD []

/-- A chunk of a pipe, with the events of the lines it completes. What follows its last newline is the
unfinished line from then on. -/
def feed (o : Output) (p : Pipe) (bs : Bytes) : Output × List CycleEvent :=
  let text := o.tail p ++ bs
  let (cycle, events) := o.cycle.run ((completed text).map Line.ofBytes)
  ({ o.setTail p (unfinished text) with cycle }, events)

/-- Chunks one after the other, and all their events. -/
def feedAll (o : Output) : List (Pipe × Bytes) → Output × List CycleEvent
  | [] => (o, [])
  | (p, bs) :: chunks =>
    let (o, es) := o.feed p bs
    let (o, more) := feedAll o chunks
    (o, es ++ more)

theorem length_completed (bs : Bytes) : (completed bs).length = bs.count newline := by
  rw [completed, List.length_dropLast, Text.length_splitOn, Nat.add_sub_cancel]

theorem completed_append (a b : Bytes) :
    completed (a ++ b) = completed a ++ completed (unfinished a ++ b) := by
  rw [completed, Text.splitOn_append, List.dropLast_append_of_ne_nil (List.splitOn_ne_nil _ _)]
  rfl

theorem unfinished_append (a b : Bytes) : unfinished (a ++ b) = unfinished (unfinished a ++ b) := by
  have hl := List.getLast?_eq_some_getLast (List.splitOn_ne_nil newline (unfinished a ++ b))
  rw [unfinished, Text.splitOn_append, List.getLast?_append, ← unfinished, hl, Option.some_or,
    ← hl]
  rfl

theorem feedAll_append (o : Output) (xs ys : List (Pipe × Bytes)) :
    o.feedAll (xs ++ ys) =
      (((o.feedAll xs).1.feedAll ys).1, (o.feedAll xs).2 ++ ((o.feedAll xs).1.feedAll ys).2) := by
  induction xs generalizing o with
  | nil => rfl
  | cons x xs ih => simp [feedAll, ih]

end Output

end WarmCheck

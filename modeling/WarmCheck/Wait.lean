import WarmCheck.Query

/-!
# Waiting for a finished cycle

A client that wants the result of a whole cycle asks again and again until it gets one, until the
daemon does not answer, or until there is no time left.

* `Wait.run`: the loop, for any way in which queries are answered.
-/

namespace WarmCheck.Wait

/-- How a wait ends. -/
inductive Outcome where
  | complete (snapshot : Snapshot)
  /-- There is no time for another query; this is what the last one said. -/
  | timedOut (snapshot : Snapshot)
  | noDaemon
  deriving DecidableEq, Repr

/-- How long to wait, and how long to pause between queries, in milliseconds. -/
structure Plan where
  ceiling : Nat
  poll : Nat
  clock : Clock := {}

/-- The wait of a check: two minutes, with a query every fifth of a second. -/
def Plan.check : Plan where
  ceiling := 120000
  poll := 200

/-- How queries are answered: the answer to the `n`-th query, made at a time. -/
abbrev Answers := Nat → Nat → Query.Result

/-- Ask from the `n`-th query on, at time `now`. The time at which the wait ends comes with how it
ends. Where no time passes between two queries, there will be none for a third. -/
def runFrom (p : Plan) (ask : Answers) (n now : Nat) : Outcome × Nat :=
  let r := ask n now
  let later := now + r.elapsed
  match r.snapshot with
  | none => (.noDaemon, later)
  | some s =>
    if s.isComplete then (.complete s, later)
    else if p.ceiling < later + p.poll then (.timedOut s, later)
    else
      let next := p.clock.wake (later + p.poll)
      if now < next then runFrom p ask (n + 1) next else (.timedOut s, later)
termination_by p.ceiling + 1 - now
decreasing_by
  have : now < p.clock.wake (now + (ask n now).elapsed + p.poll) := by assumption
  omega

/-- A whole wait, from time zero. -/
def run (p : Plan) (ask : Answers) : Outcome × Nat := runFrom p ask 0 0

/-! ## A daemon whose state changes over time -/

/-- What happens to a daemon. -/
inductive Change where
  | publish (transition : Transition)
  | stop
  deriving DecidableEq, Repr

/-- A daemon that is there or not, with its snapshot. -/
structure Served where
  store : Store
  isUp : Bool
  deriving DecidableEq, Repr

/-- A change of the daemon. -/
def Served.apply (s : Served) : Change → Served
  | .publish t => { s with store := s.store.publish t 0 }
  | .stop => { s with isUp := false }

/-- The daemon at a time, after all changes up to then. -/
def Served.at (s : Served) (timeline : List (Nat × Change)) (now : Nat) : Served :=
  ((timeline.filter (·.1 ≤ now)).map (·.2)).foldl Served.apply s

/-- Queries that are answered at once with the current snapshot, or not at all. -/
def Served.answers (s : Served) (timeline : List (Nat × Change)) : Answers := fun _ now =>
  let s := s.at timeline now
  Query.result Query.timeLimit
    (if s.isUp then some (.reply s.store.current.encode) else none)

end WarmCheck.Wait

import WarmCheck.Shell.State

/-!
# Control

How the steps of a shell go on after others, and how they leave what encloses them.

* `turns`, `turnsFor`: loops.
* `checked`, `keepingFds`, `labelled`, `ended`: what surrounds or follows a step.
-/

namespace WarmCheck.Shell

/-- One turn of a loop, and whether there may be another. -/
def turnOf (body : Step Unit) : Step Bool := do
  modify fun s => { s with loops := s.loops + 1 }
  let r ← Step.attempt body
  modify fun s => { s with loops := s.loops - 1 }
  match r with
  | .ok _ => return true
  | .error (.loops n) => if n ≤ 1 then return false else throw (.loops (n - 1))
  | .error (.turn n) => if n ≤ 1 then return true else throw (.turn (n - 1))
  | .error jump => throw jump

/-- Turns of a loop as long as each asks for another, at most `n`. A turn is told the status of the
one before it, and tells its own. -/
def turns (turn : Nat → Step (Bool × Nat)) : Nat → Nat → Step Nat
  | 0, _ => throw (.shell (.code 2))
  | n + 1, status => do
    let (isMore, status) ← turn status
    if isMore then turns turn n status else return status

/-- A turn of a loop for each of some values. -/
def turnsFor (turn : Chars → Step Bool) : List Chars → Step Unit
  | [] => return
  | v :: vs => do if ← turn v then turnsFor turn vs

/-- The status that a step ends with leaves the shell where that is wanted on faults. -/
def checked (isTested : Bool) (x : Step Nat) : Step Unit := do
  let status ← x
  Step.setStatus status
  if status ≠ 0 ∧ !isTested ∧ (← get).options.contains 'e' then throw (.shell (.code status))

/-- The descriptors as they are, after a step that may change them. -/
def keepingFds {α : Type} (x : Step α) : Step α := do
  let fds := (← get).fds
  let r ← Step.attempt x
  modify fun s => { s with fds }
  match r with
  | .ok a => return a
  | .error jump => throw jump

/-- A step during which complaints begin with a text. -/
def labelled {α : Type} (label : Chars) (x : Step α) : Step α := do
  let old := (← get).label
  modify fun s => { s with label }
  let r ← Step.attempt x
  modify fun s => { s with label := old }
  match r with
  | .ok a => return a
  | .error jump => throw jump

/-- How a shell ends that has ended by a jump, or else as is usual. -/
def endingOf (usual : Ending) : Except Jump Unit → Ending
  | .error (.shell e) => e
  | .error (.process n) => .signal n
  | .ok _ | .error _ => usual

/-- The end of a shell, with what is to be done at the end. -/
def ended (runAction : Chars → Step Unit) (r : Except Jump Unit) (s : State) : State × Ending :=
  let e := endingOf (.code s.status) r
  match e, s.traps.lookup 0 with
  | .code n, some action =>
    let s := { s with traps := s.traps.filter (·.1 ≠ 0), status := n, final := some n }
    let (r, s) := (runAction action).run s
    (s, endingOf e r)
  | _, _ => (s, e)

end WarmCheck.Shell

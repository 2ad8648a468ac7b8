import WarmCheck.Shell.Pattern

/-!
# Basic regular expressions

Characters, a dot for any of them, brackets, a star after what may be repeated, and anchors at both ends.

* `Regex.ofChars`: the expression that characters spell.
* `Regex.search?`: the first place in a text that an expression stands for.
-/

namespace WarmCheck.Shell

/-- A basic regular expression: its parts, each with whether it may be repeated, and whether it begins
and ends where the text does. -/
structure Regex where
  parts : List (Atom × Bool)
  isAtStart : Bool := false
  isAtEnd : Bool := false
  deriving DecidableEq, Repr

namespace Regex

/-- The parts that at most `n` characters spell, and whether they end with the text. -/
def partsOf : Nat → Chars → List (Atom × Bool) × Bool
  | 0, _ | _, [] => ([], false)
  | _ + 1, ['$'] => ([], true)
  | n + 1, c :: cs =>
    let (a, rest) : Atom × Chars :=
      match c, cs with
      | '\\', d :: cs => (.char d, cs)
      | '.', cs => (.one, cs)
      | '[', cs =>
        let (isNegated, inner) := match cs with
          | '^' :: cs => (true, cs)
          | cs => (false, cs)
        match Pattern.members? true (inner.map fun c => (c, false)) with
        | some (ranges, rest) => (.member isNegated ranges, rest.map (·.1))
        | none => (.char '[', cs)
      | c, cs => (.char c, cs)
    let (isRepeated, rest) := match rest with
      | '*' :: rest => (true, rest)
      | rest => (false, rest)
    let (more, isAtEnd) := partsOf n rest
    ((a, isRepeated) :: more, isAtEnd)

/-- The expression that characters spell. -/
def ofChars (cs : Chars) : Regex :=
  let (isAtStart, cs) := match cs with
    | '^' :: cs => (true, cs)
    | cs => (false, cs)
  let (parts, isAtEnd) := partsOf cs.length cs
  { parts, isAtStart, isAtEnd }

/-- The length of the longest beginning of a text that parts stand for, a part that may be repeated
taking as much as it can. -/
def length? (isAtEnd : Bool) : List (Atom × Bool) → Chars → Option Nat
  | [], cs => if isAtEnd && !cs.isEmpty then none else some 0
  | (_, true) :: ps, [] => length? isAtEnd ps []
  | (_, false) :: _, [] => none
  | (a, true) :: ps, c :: cs =>
    let further := if a.accepts c then (length? isAtEnd ((a, true) :: ps) cs).map (· + 1) else none
    further.orElse fun _ => length? isAtEnd ps (c :: cs)
  | (a, false) :: ps, c :: cs =>
    if a.accepts c then (length? isAtEnd ps cs).map (· + 1) else none
termination_by ps cs => ps.length + cs.length

/-- Where in a text, and how far, the expression stands for something. -/
def search? (r : Regex) (cs : Chars) : Option (Nat × Nat) :=
  let starts := if r.isAtStart then [0] else List.range (cs.length + 1)
  starts.findSome? fun i => (length? r.isAtEnd r.parts (cs.drop i)).map fun n => (i, n)

end Regex

end WarmCheck.Shell

import WarmCheck.Shell.Octets

/-!
# Patterns

Patterns for names and values: `?` stands for one character, `*` for any number of them, and brackets
for one of several.

* `Pattern.ofChars`: the pattern that characters spell, some of which are quoted.
* `Pattern.accepts`: what a pattern stands for.
* `Pattern.dropHead`, `Pattern.dropTail`: a text without what a pattern stands for at an end.
-/

namespace WarmCheck.Shell

/-- A part of a pattern. -/
inductive Atom where
  | char (c : Char)
  | one
  | many
  /-- One of the characters in some ranges, or one in none of them. -/
  | member (isNegated : Bool) (ranges : List (Char × Char))
  deriving DecidableEq, Repr

/-- Whether a part of a pattern stands for a character. -/
def Atom.accepts : Atom → Char → Bool
  | char d, c => d == c
  | one, _ | many, _ => true
  | member isNegated ranges, c => isNegated != ranges.any fun r => r.1 ≤ c && c ≤ r.2

/-- The parts of a pattern, from left to right. -/
abbrev Pattern := List Atom

namespace Pattern

/-! ## Reading -/

/-- The characters of a class. -/
def classRanges (name : Chars) : List (Char × Char) :=
  match String.ofList name with
  | "digit" => [('0', '9')]
  | "lower" => [('a', 'z')]
  | "upper" => [('A', 'Z')]
  | "alpha" => [('A', 'Z'), ('a', 'z')]
  | "alnum" => [('0', '9'), ('A', 'Z'), ('a', 'z')]
  | "xdigit" => [('0', '9'), ('A', 'F'), ('a', 'f')]
  | "blank" => [(' ', ' '), ('\t', '\t')]
  | "space" => [(' ', ' '), ('\t', '\r')]
  | "punct" => [('!', '/'), (':', '@'), ('[', '\x60'), ('\x7b', '~')]
  | _ => []

/-- The members of a bracket, and what follows it; `none` if it does not end. A character is given
with whether it is quoted, and an end right at the beginning is a member. -/
def members? : Bool → List (Char × Bool) → Option (List (Char × Char) × List (Char × Bool))
  | _, [] => none
  | _, ('[', false) :: (':', _) :: cs =>
    let name := (cs.map (·.1)).takeWhile (· ≠ ':')
    match h : cs.drop name.length with
    | _ :: (']', _) :: rest =>
      have : rest.length < cs.length := by
        have := congrArg List.length h
        simp only [List.length_drop, List.length_cons] at this
        omega
      (members? false rest).map fun (rs, rest) => (classRanges name ++ rs, rest)
    | _ => none
  | _, (a, _) :: ('-', false) :: (b, q) :: cs =>
    if b = ']' ∧ !q then some ([(a, a), ('-', '-')], cs)
    else (members? false cs).map fun (rs, rest) => ((a, b) :: rs, rest)
  | isFirst, (c, q) :: cs =>
    if c = ']' ∧ !q ∧ !isFirst then some ([], cs)
    else (members? false cs).map fun (rs, rest) => ((c, c) :: rs, rest)
termination_by _ cs => cs.length

/-- The pattern that at most `n` characters spell, given with whether they are quoted. -/
def ofCharsWithin : Nat → List (Char × Bool) → Pattern
  | 0, _ | _, [] => []
  | n + 1, ('*', false) :: cs => .many :: ofCharsWithin n cs
  | n + 1, ('?', false) :: cs => .one :: ofCharsWithin n cs
  | n + 1, ('[', false) :: cs =>
    let (isNegated, inner) := match cs with
      | ('!', false) :: cs => (true, cs)
      | cs => (false, cs)
    match members? true inner with
    | some (ranges, rest) => .member isNegated ranges :: ofCharsWithin n rest
    | none => .char '[' :: ofCharsWithin n cs
  | n + 1, (c, _) :: cs => .char c :: ofCharsWithin n cs

/-- The pattern that characters spell, given with whether they are quoted. -/
def ofChars (cs : List (Char × Bool)) : Pattern := ofCharsWithin cs.length cs

/-- Whether there is nothing in the pattern but the characters themselves. -/
def isPlain (p : Pattern) : Bool :=
  p.all fun a => match a with
    | .char _ => true
    | .one | .many | .member .. => false

/-! ## Meaning -/

/-- Whether the pattern stands for a text. -/
def accepts : Pattern → Chars → Bool
  | [], cs => cs.isEmpty
  | .many :: p, [] => accepts p []
  | .many :: p, c :: cs => accepts p (c :: cs) || accepts (.many :: p) cs
  | a :: p, c :: cs => a.accepts c && accepts p cs
  | _ :: _, [] => false
termination_by p cs => p.length + cs.length

/-- The lengths of the beginnings of a text that the pattern stands for, the shortest first. -/
def headLengths (p : Pattern) (cs : Chars) : List Nat :=
  (List.range (cs.length + 1)).filter fun n => p.accepts (cs.take n)

/-- A text without the shortest or the longest beginning that the pattern stands for. -/
def dropHead (longest : Bool) (p : Pattern) (cs : Chars) : Chars :=
  let lengths := p.headLengths cs
  cs.drop (((if longest then lengths.getLast? else lengths.head?)).getD 0)

/-- The lengths of the ends of a text that the pattern stands for, the shortest first. -/
def tailLengths (p : Pattern) (cs : Chars) : List Nat :=
  (List.range (cs.length + 1)).filter fun n => p.accepts (cs.drop (cs.length - n))

/-- A text without the shortest or the longest end that the pattern stands for. -/
def dropTail (longest : Bool) (p : Pattern) (cs : Chars) : Chars :=
  let lengths := p.tailLengths cs
  cs.take (cs.length - ((if longest then lengths.getLast? else lengths.head?)).getD 0)

end Pattern

end WarmCheck.Shell

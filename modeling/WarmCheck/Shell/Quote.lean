import WarmCheck.Shell.Octets

/-!
# Quoting

Where a word ends, and where something inside a word ends: quotes, braces, parentheses and
backquotes may enclose one another.

* `Enclosure`, `cut?`: a text up to a character outside of everything.
* `enclosed?`: a text up to the end of what encloses it.
* `openAtEnd`: what is still open at the end of a text.
-/

namespace WarmCheck.Shell

/-- What encloses a part of a word. -/
inductive Enclosure where
  | single
  | double
  | brace
  | paren
  | backquote
  deriving DecidableEq, Repr

namespace Enclosure

/-- Whether single quotes mean nothing where these are open, the innermost first. `isQuoted` tells
about the outside of all of them. -/
def areQuoted (isQuoted : Bool) : List Enclosure → Bool
  | [] => isQuoted
  | .double :: _ => true
  | .brace :: up => areQuoted isQuoted up
  | .single :: _ | .paren :: _ | .backquote :: _ => false

/-- What is open after a character. -/
def turn (isQuoted : Bool) : List Enclosure → Char → List Enclosure
  | .double :: up, '"' => up
  | .brace :: up, '\x7d' => up
  | .paren :: up, ')' => up
  | .paren :: up, '(' => .paren :: .paren :: up
  | up, '"' => .double :: up
  | up, '\x60' => .backquote :: up
  | up, '\'' => if areQuoted isQuoted up then up else .single :: up
  | up, _ => up

end Enclosure

/-- With characters in front of the first of two texts. -/
def ahead (cs : Chars) (split : Chars × Chars) : Chars × Chars := (cs ++ split.1, split.2)

/-- A text up to the first character outside of everything at which `stops` holds, and the rest;
`none` if something that is open does not end. -/
def cut? (isQuoted : Bool) (stops : Char → Bool) : List Enclosure → Chars → Option (Chars × Chars)
  | up, [] => if up = [] then some ([], []) else none
  | up, c :: cs =>
    if up = [] ∧ stops c then some ([], c :: cs)
    else
      match up, c, cs with
      | .single :: up, c, cs =>
        (cut? isQuoted stops (if c = '\'' then up else .single :: up) cs).map (ahead [c])
      | up, '\\', c :: cs => (cut? isQuoted stops up cs).map (ahead ['\\', c])
      | .backquote :: up, c, cs =>
        (cut? isQuoted stops (if c = '\x60' then up else .backquote :: up) cs).map (ahead [c])
      | up, '$', '(' :: cs => (cut? isQuoted stops (.paren :: up) cs).map (ahead ['$', '('])
      | up, '$', '\x7b' :: cs => (cut? isQuoted stops (.brace :: up) cs).map (ahead ['$', '\x7b'])
      | up, c, cs => (cut? isQuoted stops (Enclosure.turn isQuoted up c) cs).map (ahead [c])

/-- What is still open at the end of a text, the innermost first. -/
def openAtEnd (isQuoted : Bool) : List Enclosure → Chars → List Enclosure
  | up, [] => up
  | .single :: up, c :: cs => openAtEnd isQuoted (if c = '\'' then up else .single :: up) cs
  | up, '\\' :: _ :: cs => openAtEnd isQuoted up cs
  | .backquote :: up, c :: cs => openAtEnd isQuoted (if c = '\x60' then up else .backquote :: up) cs
  | up, '$' :: '(' :: cs => openAtEnd isQuoted (.paren :: up) cs
  | up, '$' :: '\x7b' :: cs => openAtEnd isQuoted (.brace :: up) cs
  | up, c :: cs => openAtEnd isQuoted (Enclosure.turn isQuoted up c) cs

/-- A text up to the end of what encloses it, and what follows that end. -/
def enclosed? (isQuoted : Bool) (e : Enclosure) (cs : Chars) : Option (Chars × Chars) :=
  (cut? isQuoted (fun _ => true) [e] cs).map fun (inner, rest) => (inner.dropLast, rest)

/-- A text in quotes, in which those that it contains itself stand in quotes of the other kind. -/
def quoted (cs : Chars) : Chars :=
  let step := fun (c : Char) (rest : List (Bool × Chars)) =>
    match rest with
    | (isQuotes, run) :: more =>
      if isQuotes = (c == '\'') then (isQuotes, c :: run) :: more else (c == '\'', [c]) :: rest
    | [] => [(c == '\'', [c])]
  let runs := cs.foldr step []
  let runs := match runs with
    | (true, _) :: _ | [] => (false, []) :: runs
    | runs => runs
  runs.flatMap fun (isQuotes, run) => if isQuotes then '"' :: run ++ ['"'] else '\'' :: run ++ ['\'']

/-- A character that may stand in the name of a variable. -/
def isNameChar (c : Char) : Bool := c.isAlphanum || c == '_'

/-- A text that may be the name of a variable. -/
def isName : Chars → Bool
  | [] => false
  | c :: cs => isNameChar c && !c.isDigit && cs.all isNameChar

end WarmCheck.Shell

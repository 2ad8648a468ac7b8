import WarmCheck.Shell.Quote

/-!
# Words

What the characters of a word mean before anything is put in for them.

* `Part`, `Use`: the parts of a word.
* `Word.parse?`: the word that characters spell.
-/

namespace WarmCheck.Shell

/-- What is made of the value of a parameter. In the cases that ask whether it is set, `isNull` tells
that an empty value counts as none. Other words are kept as they are written. -/
inductive Use where
  | plain
  | length
  /-- Another word where there is no value. -/
  | orElse (isNull : Bool) (word : Chars)
  /-- The same, and the parameter is set to it. -/
  | orSet (isNull : Bool) (word : Chars)
  /-- Another word where there is a value. -/
  | andThen (isNull : Bool) (word : Chars)
  /-- A complaint where there is no value. -/
  | demand (isNull : Bool) (word : Chars)
  /-- Without what a pattern stands for at an end. -/
  | trim (atEnd longest : Bool) (pattern : Chars)
  deriving DecidableEq, Repr

/-- A part of a word. -/
inductive Part where
  | text (cs : Chars)
  | value (name : Chars) (use : Use)
  /-- What a script prints, whose lines are those around it or count anew. -/
  | output (isInPlace : Bool) (script : Chars)
  /-- The value of an arithmetic expression. -/
  | sum (expression : Chars)
  deriving DecidableEq, Repr

/-- The parts of a word, each with whether it is quoted. -/
abbrev Word := List (Bool × Part)

namespace Word

/-- How a value is used, by what stands after the name of a parameter. -/
def use? : Chars → Option Use
  | [] => some .plain
  | ':' :: '-' :: w => some (.orElse true w)
  | ':' :: '=' :: w => some (.orSet true w)
  | ':' :: '+' :: w => some (.andThen true w)
  | ':' :: '?' :: w => some (.demand true w)
  | '-' :: w => some (.orElse false w)
  | '=' :: w => some (.orSet false w)
  | '+' :: w => some (.andThen false w)
  | '?' :: w => some (.demand false w)
  | '%' :: '%' :: w => some (.trim true true w)
  | '%' :: w => some (.trim true false w)
  | '#' :: '#' :: w => some (.trim false true w)
  | '#' :: w => some (.trim false false w)
  | _ => none

/-- The parameters whose names are single characters. -/
def special : Chars := ['@', '*', '#', '?', '-', '$', '!']

/-- The name of a parameter at the beginning of a text, and what follows it. -/
def name? : Chars → Option (Chars × Chars)
  | [] => none
  | c :: cs =>
    if special.contains c then some ([c], cs)
    else if c.isDigit then some ((c :: cs).takeWhile Char.isDigit, (c :: cs).dropWhile Char.isDigit)
    else if isNameChar c then
      some ((c :: cs).takeWhile isNameChar, (c :: cs).dropWhile isNameChar)
    else none

/-- What stands in braces after a dollar sign. -/
def inBraces? (inner : Chars) : Option Part :=
  match inner with
  | '#' :: c :: cs =>
    match name? (c :: cs) with
    | some (name, []) => some (.value name .length)
    | _ => (use? (c :: cs)).map (.value ['#'])
  | _ => do
    let (name, rest) ← name? inner
    return .value name (← use? rest)

/-- What stands in parentheses after a dollar sign: an expression in a second pair, or a script. -/
def inParens (inner : Chars) : Part :=
  match inner, inner.getLast? with
  | '(' :: cs, some ')' => .sum cs.dropLast
  | _, _ => .output true inner

/-- A script between backquotes, without the backslashes that quote something there. -/
def inBackquotes (isQuoted : Bool) : Chars → Chars
  | '\\' :: c :: cs =>
    if ['$', '\x60', '\\'].contains c ∨ (isQuoted ∧ c = '"') then c :: inBackquotes isQuoted cs
    else '\\' :: c :: inBackquotes isQuoted cs
  | c :: cs => c :: inBackquotes isQuoted cs
  | [] => []

/-- What follows a dollar sign, and the rest; a dollar sign may also stand for itself. -/
def afterDollar? (isQuoted : Bool) (cs : Chars) : Option (Bool × Part × Chars) :=
  match cs with
  | '(' :: cs => (enclosed? isQuoted .paren cs).map fun (inner, rest) =>
    (isQuoted, inParens inner, rest)
  | '\x7b' :: cs => do
    let (inner, rest) ← enclosed? isQuoted .brace cs
    return (isQuoted, ← inBraces? inner, rest)
  | c :: cs =>
    if c.isDigit then some (isQuoted, .value [c] .plain, cs)
    else
      match name? (c :: cs) with
      | some (name, rest) => some (isQuoted, .value name .plain, rest)
      | none => some (true, .text ['$'], c :: cs)
  | [] => some (true, .text ['$'], [])

/-- The characters that a backslash quotes in a document, in double quotes, and in double quotes between
braces. -/
def inDocument : Chars := ['$', '\x60', '\\']

def inQuotes : Chars := '"' :: inDocument

def inQuotedBraces : Chars := '\x7d' :: inQuotes

/-- The parts that at most `n` characters spell, where a backslash in quotes quotes some characters. If
double quotes are not among them, they mean nothing themselves. -/
def parseWithin? : Nat → Chars → Bool → Chars → Option Word
  | 0, _, _, _ => none
  | _, _, _, [] => some []
  | n + 1, known, isQuoted, '\\' :: '\n' :: cs => parseWithin? n known isQuoted cs
  | n + 1, known, isQuoted, '\\' :: c :: cs =>
    (parseWithin? n known isQuoted cs).map
      ((true, .text (if isQuoted && !known.contains c then ['\\', c] else [c])) :: ·)
  | n + 1, known, isQuoted, '\x60' :: cs => do
    let (inner, rest) ← enclosed? isQuoted .backquote cs
    let w ← parseWithin? n known isQuoted rest
    return (isQuoted, .output false (inBackquotes isQuoted inner)) :: w
  | n + 1, known, isQuoted, '$' :: cs => do
    let (isQuotedPart, p, rest) ← afterDollar? isQuoted cs
    let w ← parseWithin? n known isQuoted rest
    return (isQuotedPart, p) :: w
  | n + 1, known, isQuoted, c :: cs =>
    if c = '"' ∧ known.contains '"' then do
      let (inner, rest) ← enclosed? isQuoted .double cs
      let ps ← parseWithin? n inQuotes true inner
      let w ← parseWithin? n known isQuoted rest
      return (if ps = [] then [(true, .text [])] else ps) ++ w
    else if c = '\'' ∧ !isQuoted then do
      let (inner, rest) ← enclosed? false .single cs
      let w ← parseWithin? n known isQuoted rest
      return (true, .text inner) :: w
    else (parseWithin? n known isQuoted cs).map ((isQuoted, .text [c]) :: ·)

/-- The word that characters spell; if it is quoted, it stands between braces. -/
def parse? (isQuoted : Bool) (cs : Chars) : Option Word :=
  parseWithin? (cs.length + 1) inQuotedBraces isQuoted cs

/-- The text of a document, in which only dollar signs, backquotes and backslashes mean something. -/
def ofDocument? (cs : Chars) : Option Word := parseWithin? (cs.length + 1) inDocument true cs

end Word

/-- Without quotes, where something that begins with a quote is not looked into. -/
def withoutQuotes (cs : Chars) : Chars :=
  match Word.parse? false cs with
  | some w => w.flatMap fun p => match p.2 with
    | .text cs => cs
    | .value .. | .output .. | .sum _ => []
  | none => cs

end WarmCheck.Shell

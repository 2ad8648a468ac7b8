import WarmCheck.Shell.Command
import WarmCheck.Shell.Word

/-!
# Tokens of a shell script

* `Token`: words, operators and redirections.
* `Token.ofScript`: the tokens of a script.
-/

namespace WarmCheck.Shell

/-- What stands between words. -/
inductive Operator where
  | semicolon
  | ampersand
  | both
  | pipe
  | either
  | opening
  | closing
  /-- The end of a case. -/
  | endArm
  deriving DecidableEq, Repr

/-- How an operator is written. -/
def Operator.text : Operator → String
  | semicolon => ";"
  | ampersand => "&"
  | both => "&&"
  | pipe => "|"
  | either => "||"
  | opening => "("
  | closing => ")"
  | endArm => ";;"

/-- All operators, the longer ones first. -/
def Operator.all : List Operator :=
  [.both, .either, .endArm, .semicolon, .ampersand, .pipe, .opening, .closing]

/-- What redirects, before the name of a file or of a descriptor. -/
inductive Arrow where
  | file (access : Access)
  | same
  deriving DecidableEq, Repr

/-- All arrows as they are written, with the descriptor that they are about unless another is given,
the longer ones first. -/
def Arrow.all : List (String × Arrow × Nat) :=
  [("<&", .same, 0), (">&", .same, 1), (">>", .file .extend, 1), (">|", .file .replace, 1),
    ("<>", .file .readWrite, 0), ("<", .file .read, 0), (">", .file .write, 1)]

/-- A token of a script. -/
inductive Token where
  | word (line : Nat) (text : Chars)
  | op (line : Nat) (o : Operator)
  | newline (line : Nat)
  | redirect (fd : Nat) (arrow : Arrow)
  /-- A text that is to be read. -/
  | document (fd : Nat) (isLiteral : Bool) (body : Chars)
  /-- The place of a text that follows the end of the line. -/
  | announced
  /-- Something that begins on a line and does not end, of which this is open, the innermost first. -/
  | broken (line : Nat) (up : List Enclosure)
  deriving DecidableEq, Repr

namespace Token

/-! ## Documents -/

/-- The announcement of a document: its descriptor, whether tabs are taken away from its lines, and the
line after it as it is written. -/
structure Announced where
  fd : Nat
  isIndented : Bool
  finish : Chars
  deriving DecidableEq, Repr

/-- A line of a document. -/
def Announced.lineOf (a : Announced) (line : Chars) : Chars :=
  if a.isIndented then line.dropWhile (· = '\t') else line

/-- A document at the beginning of a text, up to its last line or the end, and what follows it. -/
def Announced.take (a : Announced) (cs : Chars) : Token × Chars :=
  let lines := List.splitOn '\n' cs
  let inside := lines.takeWhile fun l => a.lineOf l ≠ withoutQuotes a.finish
  let body := joined ['\n'] (inside.map a.lineOf ++ if inside.length < lines.length then [[]] else [])
  let isLiteral := a.finish.any fun c => ['\'', '"', '\\'].contains c
  (.document a.fd isLiteral body, joined ['\n'] (lines.drop (inside.length + 1)))

/-- All documents that have been announced, one after the other, and what follows them. -/
def takeAll : List Announced → Chars → List Token × Chars
  | [], cs => ([], cs)
  | a :: as, cs =>
    let (t, cs) := a.take cs
    let (ts, cs) := takeAll as cs
    (t :: ts, cs)

/-! ## Reading -/

/-- A blank between tokens. -/
def isGap (c : Char) : Bool := c == ' ' || c == '\t'

/-- A character that ends a word. -/
def endsWord (c : Char) : Bool := [' ', '\t', '\n', ';', '&', '|', '<', '>', '(', ')'].contains c

/-- The number of ends of line in a text. -/
def lineEnds (cs : Chars) : Nat := cs.countP (· = '\n')

/-- The operator at the beginning of a text, and the rest. -/
def operator? (cs : Chars) : Option (Operator × Chars) :=
  Operator.all.findSome? fun o => (List.isPrefixOf? o.text.toList cs).map fun rest => (o, rest)

/-- The arrow at the beginning of a text after an optional digit, with its descriptor, and the rest. -/
def arrow? (cs : Chars) : Option (Nat × Arrow × Chars) :=
  let digits := cs.takeWhile Char.isDigit
  Arrow.all.findSome? fun (text, arrow, usual) =>
    (List.isPrefixOf? text.toList (cs.drop digits.length)).map fun rest =>
      ((natural? digits).getD usual, arrow, rest)

/-- The announcement of a document at the beginning of a text, and the rest. -/
def announced? (cs : Chars) : Option (Announced × Chars) := do
  let digits := cs.takeWhile Char.isDigit
  let rest ← List.isPrefixOf? ['<', '<'] (cs.drop digits.length)
  let (isIndented, rest) := match rest with
    | '-' :: rest => (true, rest)
    | rest => (false, rest)
  let (finish, rest) ← cut? false endsWord [] (rest.dropWhile isGap)
  if finish = [] then none
  return (⟨(natural? digits).getD 0, isIndented, finish⟩, rest)

/-- The tokens of a text that begins on a line, looking at most at `n` places in it. Documents stand
where they are written, before the end of the line that announces them. -/
def readWithin : Nat → Nat → List Announced → Chars → List Token
  | 0, line, _, _ => [.broken line []]
  | _, _, _, [] => []
  | n + 1, line, pending, '\\' :: '\n' :: cs => readWithin n (line + 1) pending cs
  | n + 1, line, pending, '\n' :: cs =>
    let (documents, rest) := takeAll pending cs
    let ended := lineEnds cs - lineEnds rest
    documents ++ .newline line :: readWithin n (line + 1 + ended) [] rest
  | n + 1, line, pending, c :: cs =>
    if isGap c then readWithin n line pending cs
    else if c = '#' then readWithin n line pending (cs.dropWhile (· ≠ '\n'))
    else
      match announced? (c :: cs), arrow? (c :: cs), operator? (c :: cs) with
      | some (a, rest), _, _ => .announced :: readWithin n line (pending ++ [a]) rest
      | none, some (fd, arrow, rest), _ => .redirect fd arrow :: readWithin n line pending rest
      | none, none, some (o, rest) => .op line o :: readWithin n line pending rest
      | none, none, none =>
        match cut? false endsWord [] (c :: cs) with
        | some (text, rest) => .word line text :: readWithin n (line + lineEnds text) pending rest
        | none => [.broken line (openAtEnd false [] (c :: cs))]

/-- Tokens with every document at the place where it is announced, and the documents that are
announced before all of them. The documents of a line are in the order of their announcements, so
that the last announcement has the last document. -/
def settle : List Token → List Token × List Token
  | [] => ([], [])
  | .document fd isLiteral body :: ts =>
    let (ts, documents) := settle ts
    (ts, .document fd isLiteral body :: documents)
  | .announced :: ts =>
    let (ts, documents) := settle ts
    (documents.getLast?.getD (.document 0 true []) :: ts, documents.dropLast)
  | t :: ts =>
    let (ts, documents) := settle ts
    (t :: ts, documents)

/-- The tokens of a script that begins on a line. -/
def ofScript (line : Nat) (cs : Chars) : List Token :=
  (settle (readWithin (cs.length + 1) line [] cs)).1

/-- The line of the first of some tokens of which it is known. -/
def lineOf (ts : List Token) : Nat :=
  (ts.findSome? fun t =>
    match t with
    | .word line _ | .op line _ | .newline line | .broken line _ => some line
    | .redirect .. | .document .. | .announced => none).getD 1

end Token

end WarmCheck.Shell

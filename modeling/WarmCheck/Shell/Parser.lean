import WarmCheck.Shell.Token

/-!
# Reading shell scripts

* `Script`: the commands of a script, one for each line or group of lines.
* `Script.parse`: the commands that a text spells.

A reader of something gives what it has read from the head of a list of tokens and the tokens that are
left, or says what is wrong with them.
-/

namespace WarmCheck.Shell

/-- What is wrong with a script, and the line on which that is noticed; none stands for the end. -/
structure Problem where
  line : Option Nat
  text : String
  deriving DecidableEq, Repr

/-- The commands of a script in order. What comes after them is no command if there is a problem. -/
structure Script where
  commands : List Command
  problem : Option Problem := none
  deriving Repr

namespace Parser

/-! ## Single tokens -/

/-- The words that end a list of commands where a command could begin. -/
def closers : List String := ["then", "else", "elif", "fi", "do", "done", "esac", "\x7d"]

/-- All words that mean something where a command could begin. -/
def keywords : List String := closers ++ ["if", "while", "until", "for", "case", "\x7b", "!", "in"]

/-- What is said about something that does not end. -/
def broken (line : Nat) : List Enclosure → Problem
  | .backquote :: _ => ⟨none, "Syntax error: EOF in backquote substitution"⟩
  | .paren :: _ => ⟨none, "Syntax error: end of file unexpected (expecting \")\")"⟩
  | .brace :: up =>
    if Enclosure.areQuoted false up then ⟨none, "Syntax error: Unterminated quoted string"⟩
    else ⟨some line, "Syntax error: Missing '\x7d'"⟩
  | _ => ⟨none, "Syntax error: Unterminated quoted string"⟩

/-- Tokens without an arrow at their head that points at nothing. -/
def afterArrow : List Token → List Token
  | .redirect fd arrow :: .word line text :: ts => .redirect fd arrow :: .word line text :: ts
  | .redirect .. :: ts => ts
  | ts => ts

/-- What is said about tokens that cannot go on so. Another word may be expected. -/
def unexpected (ts : List Token) (wanted : Option String) : Problem :=
  let said := fun (what : String) =>
    "Syntax error: " ++ what ++ " unexpected" ++
      wanted.elim "" fun w => " (expecting \"" ++ w ++ "\")"
  let quoted := fun (w : String) => "\"" ++ w ++ "\""
  match afterArrow ts with
  | [] => ⟨none, said "end of file"⟩
  | .broken line up :: _ => broken line up
  | .word line text :: _ =>
    let w := String.ofList text
    ⟨some line, said (if keywords.contains w then quoted w else "word")⟩
  | .op line o :: _ => ⟨some line, said (quoted o.text)⟩
  | .newline line :: _ => ⟨some line, said "newline"⟩
  | .redirect .. :: _ | .document .. :: _ | .announced :: _ =>
    ⟨some (Token.lineOf ts), said "redirection"⟩

/-- A word that is written so. -/
def isWord (w : String) : Token → Bool
  | .word _ text => text == w.toList
  | _ => false

/-- An operator. -/
def isOp (o : Operator) : Token → Bool
  | .op _ p => p == o
  | _ => false

/-- An end of line. -/
def isNewline : Token → Bool
  | .newline _ => true
  | _ => false

/-- Whether a list of commands ends before these tokens. -/
def endsList : List Token → Bool
  | [] => true
  | t :: _ => closers.any (isWord · t) || isOp .closing t || isOp .endArm t

/-- Without ends of line at the head. -/
def skipLines (ts : List Token) : List Token := ts.dropWhile isNewline

/-- The tokens after a word that has to come. -/
def expect (w : String) (ts : List Token) : Except Problem (List Token) :=
  match ts with
  | t :: rest => if isWord w t then .ok rest else .error (unexpected ts (some w))
  | [] => .error (unexpected [] (some w))

/-- The tokens after a closing parenthesis that has to come. -/
def expectClosing (ts : List Token) : Except Problem (List Token) :=
  match ts with
  | t :: rest => if isOp .closing t then .ok rest else .error (unexpected ts (some ")"))
  | [] => .error (unexpected [] (some ")"))

/-- Words at the head. -/
def leadingWords : List Token → List Chars × List Token
  | .word _ text :: ts =>
    let (ws, rest) := leadingWords ts
    (text :: ws, rest)
  | ts => ([], ts)

/-! ## Redirections -/

/-- A redirection at the head. -/
def redirect? : List Token → Option (Redirect × List Token)
  | .redirect fd (.file access) :: .word _ name :: ts => some (.file fd access name, ts)
  | .redirect fd .same :: .word _ other :: ts => some (.same fd other, ts)
  | .document fd isLiteral body :: ts => some (.text fd isLiteral body, ts)
  | _ => none

/-- Redirections at the head, at most `n`. -/
def redirects : Nat → List Token → List Redirect × List Token
  | 0, ts => ([], ts)
  | n + 1, ts =>
    match redirect? ts with
    | some (r, ts) =>
      let (rs, rest) := redirects n ts
      (r :: rs, rest)
    | none => ([], ts)

/-- The words and redirections of a simple command, at most `n`. -/
def simple : Nat → List Token → List Chars × List Redirect × List Token
  | 0, ts => ([], [], ts)
  | n + 1, ts =>
    match redirect? ts, ts with
    | some (r, ts), _ =>
      let (ws, rs, rest) := simple n ts
      (ws, r :: rs, rest)
    | none, .word _ w :: ts =>
      let (ws, rs, rest) := simple n ts
      (w :: ws, rs, rest)
    | none, ts => ([], [], ts)

/-- Commands with bars between them, of which there may be only one. -/
def piped : List Command → Command
  | [c] => c
  | cs => .pipe cs

/-- The patterns of an arm, with bars between them, up to the closing parenthesis. -/
def patterns : List Token → Except Problem (List Chars × List Token)
  | .word _ p :: .op _ .closing :: ts => .ok ([p], ts)
  | .word _ p :: .op _ .pipe :: ts => do
    let (ps, rest) ← patterns ts
    return (p :: ps, rest)
  | ts => .error (unexpected (ts.drop 1) (some ")"))

/-! ## Commands -/

/-- A command with the redirections after it, on a line. -/
def withRedirects (line : Nat) (r : Command × List Token) : Command × List Token :=
  match redirects r.2.length r.2 with
  | ([], _) => r
  | (rs, rest) => (.redirected line r.1 rs, rest)

/-- The words over which a loop goes, or none if it goes over the arguments, and what follows them. -/
def loopWords (ts : List Token) : Option (List Chars) × List Token :=
  match skipLines ts with
  | t :: rest =>
    if isWord "in" t then
      let (ws, rest) := leadingWords rest
      (some ws, rest)
    else (none, t :: rest)
  | [] => (none, [])

/-- The tokens after an end of line or a semicolon, and after more ends of line. -/
def skipEnd (ts : List Token) : List Token :=
  match ts with
  | .op _ .semicolon :: rest => skipLines rest
  | ts => skipLines ts

mutual

/-- A list of commands up to something that ends it. On one line only, where that is asked for. -/
def list : Nat → Bool → List Token → Except Problem (Command × List Token)
  | 0, _, ts => .error (unexpected ts none)
  | n + 1, isLine, ts => do
    let ts := if isLine then ts else skipLines ts
    if endsList ts || (isLine && ts.head?.any isNewline) then return (.nothing, ts)
    let (c, rest) ← chain n ts
    match rest with
    | .op _ .semicolon :: rest => do
      let (d, rest) ← list n isLine rest
      return (followed c d, rest)
    | .op _ .ampersand :: rest => do
      let (d, rest) ← list n isLine rest
      return (followed (.background c) d, rest)
    | .newline line :: rest => do
      if isLine then return (c, .newline line :: rest)
      let (d, rest) ← list n isLine rest
      return (followed c d, rest)
    | rest => return (c, rest)

/-- A list of commands that is not empty, unless the script ends there. -/
def body : Nat → List Token → Except Problem (Command × List Token)
  | 0, ts => .error (unexpected ts none)
  | n + 1, ts => do
    match skipLines ts with
    | [] => return (.nothing, [])
    | ts => if endsList ts then .error (unexpected ts none) else list n false ts

/-- Commands joined by `&&` and `||`, from left to right. -/
def chain : Nat → List Token → Except Problem (Command × List Token)
  | 0, ts => .error (unexpected ts none)
  | n + 1, ts => do
    let (c, rest) ← pipeline n ts
    joined n c rest

/-- What is joined to a command by `&&` and `||`. -/
def joined : Nat → Command → List Token → Except Problem (Command × List Token)
  | n + 1, c, .op _ .both :: ts => do
    let (d, rest) ← pipeline n (skipLines ts)
    joined n (.both c d) rest
  | n + 1, c, .op _ .either :: ts => do
    let (d, rest) ← pipeline n (skipLines ts)
    joined n (.either c d) rest
  | _, c, ts => .ok (c, ts)

/-- Commands with bars between them, which may be negated. -/
def pipeline : Nat → List Token → Except Problem (Command × List Token)
  | 0, ts => .error (unexpected ts none)
  | n + 1, ts =>
    match ts with
    | .word _ ['!'] :: ts => do
      let (cs, rest) ← bars n ts
      return (.negate (piped cs), rest)
    | ts => do
      let (cs, rest) ← bars n ts
      return (piped cs, rest)

/-- Commands with bars between them. -/
def bars : Nat → List Token → Except Problem (List Command × List Token)
  | 0, ts => .error (unexpected ts none)
  | n + 1, ts => do
    let (c, rest) ← command n ts
    match rest with
    | .op _ .pipe :: rest => do
      let (cs, rest) ← bars n (skipLines rest)
      return (c :: cs, rest)
    | rest => return ([c], rest)

/-- One command with its redirections. -/
def command : Nat → List Token → Except Problem (Command × List Token)
  | 0, ts => .error (unexpected ts none)
  | n + 1, ts =>
    match ts with
    | .op line .opening :: rest => do
      let (c, rest) ← body n rest
      return withRedirects line (.subshell c, ← expectClosing rest)
    | .word line w :: rest =>
      match String.ofList w with
      | "if" => return withRedirects line (← branch n rest)
      | "while" => return withRedirects line (← loop n false rest)
      | "until" => return withRedirects line (← loop n true rest)
      | "for" => return withRedirects line (← each n line rest)
      | "case" => return withRedirects line (← select n line rest)
      | "\x7b" => do
        let (c, rest) ← body n rest
        return withRedirects line (c, ← expect "\x7d" rest)
      | _ =>
        if endsList ts || w = ['!'] then .error (unexpected ts none)
        else
          match rest, w.contains '=' with
          | .op _ .opening :: rest, false => do
            let (c, rest) ← command n (skipLines (← expectClosing rest))
            return (.function w c, rest)
          | _, _ =>
            let (ws, rs, rest) := simple ts.length ts
            return (.simple line ws rs, rest)
    | _ =>
      match simple ts.length ts with
      | ([], [], _) => .error (unexpected ts none)
      | (ws, rs, rest) => return (.simple (Token.lineOf ts) ws rs, rest)

/-- What follows `if` or `elif`. -/
def branch : Nat → List Token → Except Problem (Command × List Token)
  | 0, ts => .error (unexpected ts none)
  | n + 1, ts => do
    let (condition, rest) ← body n ts
    let (yes, rest) ← body n (← expect "then" rest)
    match rest with
    | t :: more =>
      if isWord "elif" t then do
        let (no, rest) ← branch n more
        return (.branch condition yes no, rest)
      else if isWord "else" t then do
        let (no, rest) ← body n more
        return (.branch condition yes no, ← expect "fi" rest)
      else return (.branch condition yes .nothing, ← expect "fi" rest)
    | [] => .error (unexpected [] (some "fi"))

/-- What follows `while` or `until`. -/
def loop : Nat → Bool → List Token → Except Problem (Command × List Token)
  | 0, _, ts => .error (unexpected ts none)
  | n + 1, isUntil, ts => do
    let (condition, rest) ← body n ts
    let (c, rest) ← body n (← expect "do" rest)
    return (.loop isUntil condition c, ← expect "done" rest)

/-- What follows `for` on a line. -/
def each : Nat → Nat → List Token → Except Problem (Command × List Token)
  | n + 1, line, .word _ name :: ts => do
    let (words, rest) := loopWords ts
    let (c, rest) ← body n (← expect "do" (skipEnd rest))
    return (.each line name words c, ← expect "done" rest)
  | _, _, ts => .error (unexpected ts none)

/-- What follows `case` on a line. -/
def select : Nat → Nat → List Token → Except Problem (Command × List Token)
  | n + 1, line, .word _ w :: ts => do
    let (as, rest) ← arms n (skipLines (← expect "in" (skipLines ts)))
    return (.select line w as, rest)
  | _, _, ts => .error (unexpected ts none)

/-- The cases up to `esac`. -/
def arms : Nat → List Token → Except Problem (List (List Chars × Command) × List Token)
  | 0, ts => .error (unexpected ts none)
  | n + 1, ts => do
    match ts with
    | t :: rest =>
      if isWord "esac" t then return ([], rest)
      let (ps, rest) ← patterns (if isOp .opening t then rest else ts)
      let (c, rest) ← list n false rest
      match rest with
      | .op _ .endArm :: rest => do
        let (as, rest) ← arms n (skipLines rest)
        return ((ps, c) :: as, rest)
      | t :: rest =>
        if isWord "esac" t then return ([(ps, c)], rest) else .error (unexpected (t :: rest) (some ";;"))
      | [] => .error (unexpected [] (some ";;"))
    | [] => .error (unexpected [] (some ")"))

end

/-- The commands of a script of at most `n` lines. -/
def lines : Nat → List Token → Script
  | 0, ts => ⟨[], some (unexpected ts none)⟩
  | n + 1, ts =>
    match skipLines ts with
    | [] => ⟨[], none⟩
    | ts =>
      match list (16 * ts.length + 16) true ts with
      | .ok (.nothing, rest) => ⟨[], some (unexpected rest none)⟩
      | .ok (c, []) => ⟨[c], none⟩
      | .ok (c, .newline _ :: rest) =>
        let more := lines n rest
        { more with commands := c :: more.commands }
      | .ok (_, rest) => ⟨[], some (unexpected rest none)⟩
      | .error problem => ⟨[], some problem⟩

end Parser

/-- The commands that a text spells which begins on a line. -/
def Script.parse (line : Nat) (cs : Chars) : Script :=
  let ts := Token.ofScript line cs
  let script := Parser.lines (ts.length + 1) ts
  let last := line + Token.lineEnds cs
  { script with problem := script.problem.map fun p => { p with line := some (p.line.getD last) } }

end WarmCheck.Shell

import WarmCheck.Shell.Format
import WarmCheck.Shell.Regex
import WarmCheck.Shell.Test
import WarmCheck.Shell.Utility.Basic

/-!
# Utilities that print or decide

* `Utility.seq`, `Utility.basename`, `Utility.echoed`, `Utility.printf`, `Utility.test`, `Utility.expr`.
-/

namespace WarmCheck.Shell.Utility

/-- A time to wait that a text spells. -/
def isInterval (a : Chars) : Bool :=
  let rest := a.dropWhile fun c => c.isDigit || c == '.'
  a.any Char.isDigit && (rest == [] || [['s'], ['m'], ['h'], ['d']].contains rest)

/-- Wait, which takes no time. -/
def sleep (args : List Chars) : Action := fun s =>
  match args.find? (!isInterval ·) with
  | some a => misuse ("invalid time interval ".toList ++ '\'' :: a ++ ['\'']) 1 s
  | none => (s, 0)

/-- The numbers from one to another with steps of a third, at most `n`. -/
def numbers (step last : Int) : Nat → Int → List Int
  | 0, _ => []
  | n + 1, k => if (0 < step ∧ last < k) ∨ (step < 0 ∧ k < last) then [] else k :: numbers step last n (k + step)

/-- The separator that `seq` is asked to put between numbers, and the other arguments. -/
def seqSeparator : List Chars → Chars × List Chars
  | ['-', 's'] :: sep :: args => (sep, args)
  | ('-' :: 's' :: sep) :: args => (sep, args)
  | args => (['\n'], args)

/-- Numbers from one to another. -/
def seq (args : List Chars) : Action := fun s =>
  let (sep, args) := seqSeparator args
  let print := fun (first step last : Int) =>
    let ns := numbers step last ((last - first).natAbs + 1) first
    s.say (if ns = [] then [] else joined sep (ns.map decimal) ++ ['\n'])
  match args.mapM integer? with
  | some [last] => print 1 1 last
  | some [first, last] => print first 1 last
  | some [first, step, last] =>
    if step = 0 then complain "invalid Zero increment value: '0'".toList 1 s
    else print first step last
  | _ => complain "invalid argument".toList 1 s

/-- The name of a file without its directory and an ending. -/
def basename (args : List Chars) : Action := fun s =>
  match args with
  | a :: rest =>
    let name := ofBytes (((pathOf a).fileName?).getD (if a = [] then [] else [Path.slash]))
    let ending := rest.head?.getD []
    let isShorter := ending ≠ name ∧ (name.drop (name.length - ending.length)) = ending
    s.say ((if isShorter then name.take (name.length - ending.length) else name) ++ ['\n'])
  | [] => complain "missing operand".toList 1 s

/-- The directory of a file. -/
def dirname (args : List Chars) : Action :=
  eachOf (fun a s =>
    let dir := match (pathOf a).parent? with
      | some p => ofBytes p.bytes
      | none => a.take 1
    s.say ((if dir = [] then ['.'] else dir) ++ ['\n'])) args

/-- Arguments with spaces between them. Backslashes mean something only if that is asked for. -/
def echoed (args : List Chars) : Chars :=
  let isOption := fun (a : Chars) => match a with
    | '-' :: c :: cs => (c :: cs).all ['n', 'e', 'E'].contains
    | _ => false
  let letters := (args.takeWhile isOption).flatten
  echo (letters.contains 'e')
    (if letters.contains 'n' then ['-', 'n'] :: args.dropWhile isOption else args.dropWhile isOption)

/-- Arguments put into a format. -/
def printf (args : List Chars) : Action := fun s =>
  match args with
  | format :: args =>
    let (text, problem) := Format.print format args
    let (s, status) := s.say text
    match problem with
    | some p => complain p.text 1 s
    | none => (s, status)
  | [] => misuse "missing operand".toList 1 s

/-- A test, which in brackets has to end in one. -/
def test (inBrackets : Bool) (args : List Chars) : Action := fun s =>
  if inBrackets ∧ args.getLast? ≠ some [']'] then (s.blame "[: missing ]".toList, 2)
  else
    match Test.eval s.disk (if inBrackets then args.dropLast else args) with
    | .ok b => (s, statusOf b)
    | .error problem => (s.blame ((if inBrackets then "[: ".toList else "test: ".toList) ++ problem), 2)

/-! ## Expressions of arguments -/

/-- The operators between arguments by their rank, those that bind least first. -/
def exprRank? (op : String) : Option Nat :=
  [["|"], ["&"], ["=", "==", "!=", "<", "<=", ">", ">="], ["+", "-"], ["*", "/", "%"], [":"]].findIdx?
    (·.contains op)

/-- Whether a value counts as none. -/
def isNull (a : Chars) : Bool := a == [] || integer? a == some 0

/-- What an operator makes of two values, or what is wrong with them. -/
def exprValue (op : String) (a b : Chars) : Except Chars Chars :=
  let numbers := do return (← integer? a, ← integer? b)
  let truth := fun (r : Bool) => if r then ['1'] else ['0']
  match op, numbers with
  | "|", _ => .ok (if !isNull a then a else if !isNull b then b else ['0'])
  | "&", _ => .ok (if isNull a || isNull b then ['0'] else a)
  | ":", _ =>
    let r := Regex.ofChars b
    .ok (decimal (({ r with isAtStart := true }.search? a).elim 0 fun m => (m.2 : Int)))
  | "<", some (m, n) => .ok (truth (m < n))
  | "<=", some (m, n) => .ok (truth (m ≤ n))
  | ">", some (m, n) => .ok (truth (n < m))
  | ">=", some (m, n) => .ok (truth (n ≤ m))
  | "<", none => .ok (truth (a < b))
  | "<=", none => .ok (truth !decide (b < a))
  | ">", none => .ok (truth (b < a))
  | ">=", none => .ok (truth !decide (a < b))
  | "!=", some (m, n) => .ok (truth (m ≠ n))
  | "!=", none => .ok (truth (a ≠ b))
  | "=", some (m, n) | "==", some (m, n) => .ok (truth (m = n))
  | "=", none | "==", none => .ok (truth (a = b))
  | "+", some (m, n) => .ok (decimal (m + n))
  | "-", some (m, n) => .ok (decimal (m - n))
  | "*", some (m, n) => .ok (decimal (m * n))
  | "/", some (m, n) => if n = 0 then .error "division by zero".toList else .ok (decimal (m.tdiv n))
  | "%", some (m, n) => if n = 0 then .error "division by zero".toList else .ok (decimal (m.tmod n))
  | _, _ => .error "non-integer argument".toList

/-- The value of a word about the texts that follow it, and what follows them. -/
def exprWord? : String → List Chars → Option (Chars × List Chars)
  | "length", a :: args => some (decimal a.length, args)
  | "index", a :: b :: args => some (decimal ((a.findIdx? b.contains).elim 0 (· + 1) : Nat), args)
  | "match", a :: b :: args => (exprValue ":" a b).toOption.map (·, args)
  | "substr", a :: start :: count :: args =>
    match natural? start, natural? count with
    | some (k + 1), some n => some ((a.drop k).take n, args)
    | _, _ => some ([], args)
  | _, _ => none

mutual

/-- An operand and what operators of at least a rank make of it. -/
def exprFrom : Nat → Nat → List Chars → Except Chars (Chars × List Chars)
  | 0, _, _ | _, _, [] => .error "syntax error".toList
  | n + 1, least, ['('] :: args => do
    match ← exprFrom n 0 args with
    | (a, [')'] :: rest) => exprOn n least a rest
    | _ => .error "syntax error".toList
  | n + 1, least, a :: args =>
    let (a, rest) := (exprWord? (String.ofList a) args).getD (a, args)
    exprOn n least a rest

/-- What operators of at least a rank make of a value, from left to right. -/
def exprOn : Nat → Nat → Chars → List Chars → Except Chars (Chars × List Chars)
  | n + 1, least, a, op :: args =>
    match exprRank? (String.ofList op) with
    | some r =>
      if least ≤ r then do
        let (b, rest) ← exprFrom n (r + 1) args
        exprOn n least (← exprValue (String.ofList op) a b) rest
      else .ok (a, op :: args)
    | none => .ok (a, op :: args)
  | _, _, a, args => .ok (a, args)

end

/-- The value of an expression whose parts are arguments. -/
def expr (args : List Chars) : Action := fun s =>
  match exprFrom (2 * args.length + 2) 0 args with
  | .ok (a, []) =>
    let (s, status) := s.say (a ++ ['\n'])
    (s, max status (statusOf !isNull a))
  | .ok _ => complain "syntax error".toList 2 s
  | .error problem => complain problem 2 s

/-- Print the variables that the program sees, or the values of some. -/
def printenv (args : List Chars) : Action := fun s =>
  let entries := s.environment.entries
  match args with
  | [] => s.say (entries.flatMap fun (name, value) => name.toList ++ '=' :: ofBytes value ++ ['\n'])
  | args => eachOf (fun a s =>
      match entries.lookup (String.ofList a) with
      | some value => s.say (ofBytes value ++ ['\n'])
      | none => (s, 1)) args s

end WarmCheck.Shell.Utility

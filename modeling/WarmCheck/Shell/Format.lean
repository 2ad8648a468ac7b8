import WarmCheck.Shell.Arithmetic

/-!
# Printing

* `unescape`: a text in which backslashes stand for other characters.
* `echo`: arguments with spaces between them.
* `Format.print`: arguments put into a format.
-/

namespace WarmCheck.Shell

/-! ## Backslashes -/

/-- The character that a backslash and another character stand for. -/
def escaped? : Char → Option Char
  | 'a' => some '\x07'
  | 'b' => some '\x08'
  | 'e' => some '\x1b'
  | 'f' => some '\x0c'
  | 'n' => some '\n'
  | 'r' => some '\r'
  | 't' => some '\t'
  | 'v' => some '\x0b'
  | '\\' => some '\\'
  | _ => none

/-- A digit in base eight. -/
def isOctal (c : Char) : Bool := '0' ≤ c && c ≤ '7'

/-- The character whose number octal digits spell, modulo 256. -/
def ofOctal (ds : Chars) : Char := Char.ofNat (((Sum.inBase? 8 ds).getD 0) % 256)

/-- A text of at most `n` characters in which backslashes stand for other characters, and whether it
comes to its end before `\c`. -/
def unescapeWithin : Nat → Chars → Chars × Bool
  | 0, _ | _, [] => ([], true)
  | _ + 1, '\\' :: 'c' :: _ => ([], false)
  | n + 1, '\\' :: c :: cs =>
    let (out, rest) : Chars × Chars :=
      if isOctal c then
        let ds := ((if c = '0' then cs else c :: cs).take 3).takeWhile isOctal
        ([ofOctal ds], (if c = '0' then cs else c :: cs).drop ds.length)
      else ((escaped? c).elim ['\\', c] fun e => [e], cs)
    let (more, isWhole) := unescapeWithin n rest
    (out ++ more, isWhole)
  | n + 1, c :: cs =>
    let (more, isWhole) := unescapeWithin n cs
    (c :: more, isWhole)

/-- A text in which backslashes stand for other characters, and whether it comes to its end. -/
def unescape (cs : Chars) : Chars × Bool := unescapeWithin cs.length cs

/-- Arguments with spaces between them and an end of line after them, unless the first says otherwise.
In some shells backslashes stand for other characters. -/
def echo (hasEscapes : Bool) (args : List Chars) : Chars :=
  let (isLine, args) := match args with
    | ['-', 'n'] :: args => (false, args)
    | args => (true, args)
  let text := joined [' '] args
  let (text, isWhole) := if hasEscapes then unescape text else (text, true)
  if isLine && isWhole then text ++ ['\n'] else text

/-! ## Formats -/

/-- How an argument is put into a format. -/
structure Format where
  isLeft : Bool := false
  isZero : Bool := false
  hasSign : Bool := false
  hasSpace : Bool := false
  width : Nat := 0
  precision : Option Nat := none
  kind : Char := 's'
  deriving DecidableEq, Repr

namespace Format

/-- What is wrong with a format or an argument. -/
inductive Problem where
  | notANumber (arg : Chars)
  /-- Only the beginning of an argument is a number. -/
  | notWhole (arg : Chars)
  | badDirective (directive : Chars)
  deriving DecidableEq, Repr

/-- What is said about a problem. -/
def Problem.text : Problem → Chars
  | notANumber a => a ++ ": expected numeric value".toList
  | notWhole a => a ++ ": not completely converted".toList
  | badDirective d => d ++ ": invalid directive".toList

/-- The status that a problem leads to. -/
def Problem.status : Problem → Nat
  | notANumber _ | notWhole _ => 1
  | badDirective _ => 2

/-- What has been printed, the arguments that are left, the number of those that were used, the last
problem, and whether printing goes on. -/
structure Progress where
  out : Chars := []
  args : List Chars
  used : Nat := 0
  problem : Option Problem := none
  isWhole : Bool := true
  deriving DecidableEq, Repr

/-- A number for a width or a precision: digits, or a star for the next argument. -/
def count (cs : Chars) (args : List Chars) : Option Nat × Chars × List Chars :=
  match cs with
  | '*' :: cs => ((args.head?.bind natural?), cs, args.drop 1)
  | cs => (natural? (cs.takeWhile Char.isDigit), cs.dropWhile Char.isDigit, args)

/-- What stands after a percent sign, the rest, and the arguments that are left. -/
def read? (cs : Chars) (args : List Chars) : Option (Format × Chars × List Chars) :=
  let isFlag := fun c => ['-', '+', ' ', '0', '#'].contains c
  let flags := cs.takeWhile isFlag
  let (width, cs, args) := count (cs.dropWhile isFlag) args
  let (precision, cs, args) := match cs with
    | '.' :: cs =>
      let (p, cs, args) := count cs args
      (some (p.getD 0), cs, args)
    | cs => (none, cs, args)
  match cs with
  | kind :: cs =>
    some ({ isLeft := flags.contains '-', isZero := flags.contains '0', hasSign := flags.contains '+'
            hasSpace := flags.contains ' ', width := width.getD 0, precision, kind }, cs, args)
  | [] => none

/-- A text made as wide as the format says. -/
def pad (f : Format) (cs : Chars) : Chars :=
  let gap := List.replicate (f.width - cs.length) ' '
  if f.isLeft then cs ++ gap else gap ++ cs

/-- The digits of a number with its sign, made as wide as the format says. -/
def padNumber (f : Format) (sign digits : Chars) : Chars :=
  let digits := List.replicate (f.precision.getD 1 - digits.length) '0' ++ digits
  let filled := if f.isZero ∧ !f.isLeft ∧ f.precision.isNone then
      List.replicate (f.width - digits.length - sign.length) '0' ++ digits
    else digits
  pad f (sign ++ filled)

/-- The number that an argument begins with, and what follows it: all of the argument if there is no
number. A character after a quote stands for its code. -/
def numeral : Chars → Int × Chars
  | '\'' :: c :: _ | '"' :: c :: _ => (c.toNat, [])
  | cs =>
    let (sign, ds) : Int × Chars := match cs.dropWhile [' ', '\t', '\n'].contains with
      | '-' :: ds => (-1, ds)
      | '+' :: ds => (1, ds)
      | ds => (1, ds)
    let (base, ds) : Nat × Chars := match ds with
      | '0' :: x :: d :: more =>
        if (x = 'x' ∨ x = 'X') ∧ (Sum.hexValue? d).isSome then (16, d :: more) else (8, ds)
      | '0' :: _ => (8, ds)
      | _ => (10, ds)
    let digits := ds.takeWhile fun c => (Sum.hexValue? c).any (· < base)
    (sign * ((Sum.inBase? base digits).getD 0 : Nat), if digits = [] then cs else ds.drop digits.length)

/-- What is wrong with an argument that is to be a number, of which this is left. -/
def problemOf (arg rest : Chars) : Option Problem :=
  if rest = [] then none else if rest = arg then some (.notANumber arg) else some (.notWhole arg)

/-- A number in one of the notations of formats. -/
def notated (f : Format) (n : Int) : Chars :=
  let natural := (n % 0x10000000000000000).toNat
  match f.kind with
  | 'o' => padNumber f [] (Nat.toDigits 8 natural)
  | 'x' => padNumber f [] (Nat.toDigits 16 natural)
  | 'X' => padNumber f [] ((Nat.toDigits 16 natural).map Char.toUpper)
  | 'u' => padNumber f [] (Text.decimal natural)
  | _ =>
    let sign := if n < 0 then ['-'] else if f.hasSign then ['+'] else if f.hasSpace then [' '] else []
    padNumber f sign (Text.decimal n.natAbs)

/-- An argument put into a format, what is wrong with it, and whether printing goes on. -/
def put (f : Format) (arg : Chars) : Chars × Option Problem × Bool :=
  match f.kind with
  | 's' => (pad f (arg.take (f.precision.getD arg.length)), none, true)
  | 'c' => (pad f (arg.take 1), none, true)
  | 'b' =>
    let (cs, isWhole) := unescape arg
    (pad f (cs.take (f.precision.getD cs.length)), none, isWhole)
  | _ =>
    let (n, rest) := numeral arg
    (notated f n, problemOf arg rest, true)

/-- A format of at most `n` characters printed once. -/
def once : Nat → Chars → Progress → Progress
  | 0, _, p | _, [], p => p
  | n + 1, '%' :: '%' :: cs, p => once n cs { p with out := p.out ++ ['%'] }
  | n + 1, '%' :: cs, p =>
    match read? cs p.args with
    | some (f, rest, args) =>
      if ['s', 'c', 'b', 'd', 'i', 'u', 'o', 'x', 'X'].contains f.kind then
        let (text, problem, isWhole) := f.put (args.head?.getD [])
        let p := { p with
          out := p.out ++ text, args := args.drop 1, used := p.used + 1
          problem := problem.or p.problem, isWhole }
        if isWhole then once n rest p else p
      else { p with problem := some (.badDirective ['%', f.kind]), isWhole := false }
    | none => { p with problem := some (.badDirective ['%']), isWhole := false }
  | n + 1, c :: cs, p => once n cs { p with out := p.out ++ [c] }

/-- A format printed again and again until all arguments are used, at most `n` times. -/
def again (format : Chars) : Nat → Progress → Progress
  | 0, p => p
  | n + 1, p =>
    let q := once format.length format { p with used := 0 }
    if q.args = [] ∨ q.used = 0 ∨ !q.isWhole then q else again format n q

/-- Arguments put into a format, and the last problem. -/
def print (format : Chars) (args : List Chars) : Chars × Option Problem :=
  let (format, _) := unescape format
  let p := again format (args.length + 1) { args }
  (p.out, p.problem)

end Format

end WarmCheck.Shell

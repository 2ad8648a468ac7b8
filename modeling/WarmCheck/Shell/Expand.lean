import WarmCheck.Shell.Arithmetic
import WarmCheck.Shell.Field
import WarmCheck.Shell.State
import WarmCheck.Shell.Word

/-!
# Putting in values

What stands in a word for something else is replaced by it. `print` tells what a script prints whose
output is put in.

* `Expand.fields`: the fields of a word.
* `Expand.value`, `Expand.pattern`, `Expand.document`: words where there are no fields.
-/

namespace WarmCheck.Shell.Expand

variable (print : Bool → Chars → Step Chars)

/-- The value of a parameter that is not all arguments. -/
def parameter? (s : State) (name : Chars) : Option Chars :=
  match name with
  | ['#'] => some (decimal s.args.length)
  | ['?'] => some (decimal s.status)
  | ['$'] => some (decimal s.pid)
  | ['!'] => s.last.map fun n => decimal n
  | ['-'] => some (optionLetters.reverse.filter s.options.contains)
  | ['0'] => some s.name
  | _ =>
    match natural? name with
    | some n => s.args[n - 1]?
    | none => s.value? name

/-- The characters that separate fields. -/
def separators (s : State) : Chars := (s.value? "IFS".toList).getD usualSeparators

/-- Whether a name stands for all arguments. -/
def isAll (name : Chars) : Bool := name == ['@'] || name == ['*']

/-- The value of a parameter as it is put in. All arguments are fields of their own, unless a quoted
star joins them. -/
def pieces (s : State) (isQuoted : Bool) (name : Chars) : List Glyph :=
  if name = ['*'] ∧ isQuoted then
    Glyph.ofValue true (joined ((separators s).take 1) s.args)
  else if isAll name then Glyph.ofValues isQuoted s.args
  else Glyph.ofValue isQuoted ((parameter? s name).getD [])

/-- Whether a parameter has a value; an empty one may count as none. -/
def hasValue (s : State) (isNull : Bool) (name : Chars) : Bool :=
  let value := if isAll name then if s.args = [] then none else some (joined [' '] s.args)
    else parameter? s name
  match value with
  | some v => !(isNull && v.isEmpty)
  | none => false

/-- What is said about an expression without a value. -/
def sumProblem (e : Chars) : SumError → Chars
  | .notAnExpression => "arithmetic expression: expecting primary: \"".toList ++ e ++ ['"']
  | .divisionByZero => "arithmetic expression: division by zero: \"".toList ++ e ++ ['"']
  | .notANumber v => "Illegal number: ".toList ++ v

/-- The value of an arithmetic expression, in which variables may be set. -/
def sum (e : Chars) : Step Chars := do
  let s ← get
  let result := match Sum.parse? e with
    | some a => a.value s.value? []
    | none => .error .notAnExpression
  match result with
  | .ok (n, set) =>
    modify fun s => set.reverse.foldl (fun s (x, m) => s.set x (decimal m)) s
    return decimal n
  | .error problem => Step.abort (sumProblem e problem)

mutual

/-- What is put in for a part of a word. Words inside it are looked at to a depth. -/
def part : Nat → Bool → Part → Step (List Glyph)
  | _, isQuoted, .text cs => return Glyph.ofText isQuoted cs
  | _, isQuoted, .output isInPlace script => do
    return Glyph.ofValue isQuoted (dropLineEnds (← print isInPlace script))
  | n, isQuoted, .sum e => do
    match n, Word.ofDocument? e with
    | n + 1, some w => return Glyph.ofValue isQuoted (← sum (Glyph.text (← parts n w)))
    | _, _ => Step.abort "Bad substitution".toList
  | n, isQuoted, .value name use => do
    let s ← get
    match use with
    | .plain =>
      if s.options.contains 'u' ∧ !isAll name ∧ (parameter? s name).isNone then
        Step.abort (name ++ ": parameter not set".toList)
      else return pieces s isQuoted name
    | .length =>
      let value := if isAll name then joined [' '] s.args else (parameter? s name).getD []
      return Glyph.ofValue isQuoted (decimal value.length)
    | .orElse isNull word =>
      if hasValue s isNull name then return pieces s isQuoted name else other n isQuoted word
    | .andThen isNull word =>
      if hasValue s isNull name then other n isQuoted word else return Glyph.ofText isQuoted []
    | .orSet isNull word =>
      if hasValue s isNull name then return pieces s isQuoted name
      else
        let v := Glyph.text (← other n isQuoted word)
        modify (·.set name v)
        return Glyph.ofValue isQuoted v
    | .demand isNull word =>
      if hasValue s isNull name then return pieces s isQuoted name
      else
        let said := Glyph.text (← other n isQuoted word)
        let said := if said = [] then "parameter not set".toList else said
        Step.abort (name ++ ": ".toList ++ said)
    | .trim atEnd longest pattern =>
      let p := Pattern.ofChars (Glyph.marked (← other n false pattern))
      let v := (parameter? s name).getD []
      return Glyph.ofValue isQuoted (if atEnd then p.dropTail longest v else p.dropHead longest v)
termination_by n => (n, 1)

/-- What is put in for the parts of a word. -/
def parts : Nat → Word → Step (List Glyph)
  | _, [] => return []
  | n, (isQuoted, p) :: w => do return (← part n isQuoted p) ++ (← parts n w)
termination_by n w => (n, w.length + 2)

/-- What is put in for a word that stands inside another. -/
def other : Nat → Bool → Chars → Step (List Glyph)
  | 0, _, _ => Step.abort "Bad substitution".toList
  | n + 1, isQuoted, cs =>
    match Word.parse? isQuoted cs with
    | some w => do return (← parts n w).map fun g => if isQuoted then g else g.putIn
    | none => Step.abort "Bad substitution".toList
termination_by n => (n, 0)

end

/-- What is put in for a word as it is written. A tilde stands for the home directory in front of a slash
or alone. -/
def glyphs (cs : Chars) : Step (List Glyph) := do
  let (home, rest) ← match cs, (← get).value? "HOME".toList with
    | '~' :: rest, some home =>
      pure (if rest = [] ∨ rest.head? = some '/' then (Glyph.ofText true home, rest) else ([], cs))
    | _, _ => pure ([], cs)
  match Word.parse? false rest with
  | some w => return home ++ (← parts print (rest.length + 1) w)
  | none => Step.abort "Bad substitution".toList

/-- The fields of a word. -/
def fields (cs : Chars) : Step (List Chars) := do
  let gs ← glyphs print cs
  let s ← get
  let fs := fieldsOf (separators s) gs
  return if s.options.contains 'f' then fs.map (·.map (·.1)) else fs.flatMap (pathnames s.disk)

/-- A word where there are no fields. -/
def value (cs : Chars) : Step Chars := do return Glyph.text (← glyphs print cs)

/-- The pattern that a word spells. -/
def pattern (cs : Chars) : Step Pattern := do
  return Pattern.ofChars (Glyph.marked (← glyphs print cs))

/-- A document in which values are put in. -/
def document (cs : Chars) : Step Chars :=
  match Word.ofDocument? cs with
  | some w => do return Glyph.text (← parts print (cs.length + 1) w)
  | none => Step.abort "Bad substitution".toList

end WarmCheck.Shell.Expand

import WarmCheck.Shell.Builtin.Variables
import WarmCheck.Shell.Expand

/-!
# Reading lines

* `Builtin.read`: a line read into variables.
-/

namespace WarmCheck.Shell.Builtin

/-- The line at the beginning of a text, with the number of octets that it takes and whether it ends. A
backslash goes before a character that is taken as it is, or joins two lines. -/
def line (isRaw : Bool) : Chars → List (Char × Bool) × Nat × Bool
  | [] => ([], 0, false)
  | '\n' :: _ => ([], 1, true)
  | '\\' :: c :: cs =>
    if isRaw then
      let (rest, n, ends) := line isRaw (c :: cs)
      (('\\', false) :: rest, n + 1, ends)
    else
      let (rest, n, ends) := line isRaw cs
      (if c = '\n' then rest else (c, true) :: rest, n + 2, ends)
  | c :: cs =>
    let (rest, n, ends) := line isRaw cs
    ((c, false) :: rest, n + 1, ends)

/-- The values that variables get from a line; the last of them gets all that is left. -/
def distribute (separators : Chars) : List Chars → List (Char × Bool) → List (Chars × Chars)
  | [], _ => []
  | names, cs =>
    let isBlank := fun (c : Char × Bool) =>
      !c.2 && separators.contains c.1 && usualSeparators.contains c.1
    let ends := fun (c : Char × Bool) => !c.2 && separators.contains c.1
    let cs := cs.dropWhile isBlank
    match names with
    | [name] => [(name, ((cs.reverse.dropWhile isBlank).reverse).map (·.1))]
    | name :: names =>
      let rest := (cs.dropWhile (!ends ·)).dropWhile isBlank
      let rest := match rest with
        | c :: more => if ends c && !isBlank c then more else c :: more
        | [] => []
      (name, (cs.takeWhile (!ends ·)).map (·.1)) :: distribute separators names rest
    | [] => []

/-- Read a line into variables. -/
def read (args : List Chars) : Step Nat := do
  let isRaw := args.contains ['-', 'r']
  let names := args.filter (· ≠ ['-', 'r'])
  if names = [] then return ← Step.blame 2 "read: arg count".toList
  let s ← get
  let (cs, taken, ends) := line isRaw (ofBytes ((s.read? 0).getD []))
  set (s.consume 0 taken)
  for (name, value) in distribute (Expand.separators s) names cs do
    if !isName name then Step.abort (name ++ ": bad variable name".toList)
    assign name value
  return if ends then 0 else 1

end WarmCheck.Shell.Builtin

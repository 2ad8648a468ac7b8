import WarmCheck.Shell.Quote
import WarmCheck.Shell.State

/-!
# Variables

* `Builtin.assign`, `Builtin.declare`, `Builtin.declareLocal`, `Builtin.unset`: how variables come and go.
-/

namespace WarmCheck.Shell.Builtin

/-- A name and the value after its equals sign, if there is one. -/
def definition (a : Chars) : Chars × Option Chars :=
  let name := a.takeWhile (· ≠ '=')
  (name, if name.length < a.length then some (a.drop (name.length + 1)) else none)

/-- Set a variable that may be set. -/
def assign (name value : Chars) : Step Unit := do
  if ((← get).var? name).any (·.isConstant) then Step.abort (name ++ ": is read only".toList)
  else modify (·.set name value)

/-- Print variables in order, with a word before each. -/
def list (word : Chars) (isListed : Var → Bool) (s : State) : State × Nat :=
  let vars := (s.vars.filter fun v => isListed v.2).mergeSort fun a b => !decide (b.1 < a.1)
  s.say (vars.flatMap fun (name, v) =>
    word ++ name ++ v.value.elim [] (fun value => '=' :: quoted value) ++ ['\n'])

/-- Change variables, setting those that are given with a value. If none are given, those that have
been changed are printed as commands that do the same. -/
def declare (word : String) (isChanged : Var → Bool) (f : Var → Var) (args : List Chars) : Step Nat := do
  let args := args.filter (· ≠ ['-', 'p'])
  if args = [] then return ← Step.gauge (list (word.toList ++ [' ']) isChanged)
  for a in args do
    let (name, value) := definition a
    if !isName name then Step.abort (word.toList ++ ": ".toList ++ name ++ ": bad variable name".toList)
    if let some v := value then assign name v
    modify fun s => s.putVar name (some (f ((s.var? name).getD ⟨none, false, false⟩)))
  return 0

/-- Save variables for the time after the function, and set those that are given with a value. -/
def declareLocal (args : List Chars) : Step Nat := do
  if (← get).saved.isEmpty then Step.abort "local: not in a function".toList
  for a in args do
    let (name, value) := definition a
    modify fun s =>
      match s.saved with
      | inner :: outer => { s with saved := ((name, s.var? name) :: inner) :: outer }
      | [] => s
    if let some v := value then assign name v
  return 0

/-- Take variables or functions away. -/
def unset (args : List Chars) : Step Nat := do
  match args with
  | ['-', 'f'] :: names => modify fun s =>
    { s with functions := s.functions.filter fun f => !names.contains f.1 }
  | _ =>
    for name in args.filter (· ≠ ['-', 'v']) do
      if !isName name then Step.abort ("unset: ".toList ++ name ++ ": bad variable name".toList)
      if ((← get).var? name).any (·.isConstant) then
        Step.abort ("unset: ".toList ++ name ++ ": is read only".toList)
      modify fun s => s.putVar name none
  return 0

end WarmCheck.Shell.Builtin

import WarmCheck.Shell.Builtin.Variables

/-!
# Options and arguments

* `Builtin.setAll`, `Builtin.shift`: the options and the arguments of the shell.
* `Builtin.getopts`: the options among arguments, one after the other.
-/

namespace WarmCheck.Shell.Builtin

/-- A text that a command takes for no number ends the shell. -/
def noNumber {α : Type} (name : String) (a : Chars) : Step α :=
  Step.abort (name.toList ++ ": Illegal number: ".toList ++ a)

/-- The letter of an option with this long name. -/
def letterOf? (name : Chars) : Option (Option Char) := allOptions.lookup (String.ofList name)

/-- Turn options on or off. -/
def turnOptions (isOn : Bool) (letters : List Char) (s : State) : State :=
  let rest := s.options.filter (!letters.contains ·)
  { s with options := if isOn then rest ++ letters.eraseDups else rest }

/-- Print all options, as a table or as commands that set them. -/
def listOptions (isTable : Bool) (s : State) : State × Nat :=
  let isOn := fun (letter : Option Char) => letter.any s.options.contains
  let rows := allOptions.map fun (name, letter) =>
    if isTable then
      name.toList ++ List.replicate (16 - name.length) ' ' ++ (if isOn letter then "on" else "off").toList
    else (if isOn letter then "set -o " else "set +o ").toList ++ name.toList
  let title := if isTable then "Current option settings\n".toList else []
  s.say (title ++ rows.flatMap (· ++ ['\n']))

/-- Turn the options of an argument on or off, one after the other. An `o` takes the long name of an
option from the arguments that follow, which are given back. -/
def turnAll (isOn : Bool) : List Char → List Chars → Step (List Chars)
  | [], args => return args
  | 'o' :: letters, args => do
    match args with
    | [] => do
      let _ ← Step.gauge (listOptions isOn)
      turnAll isOn letters []
    | name :: args =>
      match letterOf? name with
      | some letter => do
        modify (turnOptions isOn letter.toList)
        turnAll isOn letters args
      | none => Step.abort ("set: Illegal option -o ".toList ++ name)
  | c :: letters, args => do
    if optionLetters.contains c then
      modify (turnOptions isOn [c])
      turnAll isOn letters args
    else Step.abort ("set: Illegal option -".toList ++ [c])

/-- Set options by arguments that begin with a sign, at most `n`, and give back the arguments after
them. `none` stands for no change of the arguments. -/
def setOptions : Nat → List Chars → Step (Option (List Chars))
  | 0, _ | _, [] => return none
  | _, ['-', '-'] :: args => return some args
  | _, ['-'] :: args => return if args = [] then none else some args
  | n + 1, (sign :: letters) :: args => do
    if sign = '-' ∨ sign = '+' then setOptions n (← turnAll (sign = '-') letters args)
    else return some ((sign :: letters) :: args)
  | _, [] :: args => return some ([] :: args)

/-- Set options and arguments; without any, print the variables. -/
def setAll (args : List Chars) : Step Nat := do
  if args = [] then return ← Step.gauge (list [] (·.value.isSome))
  if let some rest ← setOptions (args.length + 1) args then modify fun s => { s with args := rest }
  return 0

/-- Take arguments away from the front. -/
def shift (args : List Chars) : Step Nat := do
  let s ← get
  match args.head?.elim (some 1) natural? with
  | some n =>
    if s.args.length < n then Step.abort "shift: can't shift that many".toList
    set { s with args := s.args.drop n }
    return 0
  | none => noNumber "shift" (args.head?.getD [])

/-! ## Options among arguments -/

/-- What is known of an option by a text with the letters of all options, those that take an argument
before a colon. -/
inductive OptionForm where
  | unknown
  | alone
  | withArgument
  deriving DecidableEq, Repr

/-- The form of an option with a letter. -/
def OptionForm.of (letters : Chars) (c : Char) : OptionForm :=
  match (letters.dropWhile (· = ':')).dropWhile (· ≠ c) with
  | _ :: ':' :: _ => if c = ':' then unknown else withArgument
  | _ :: _ => if c = ':' then unknown else alone
  | [] => unknown

/-- What the next option comes to: the value of the variable, that of `OPTARG` and a complaint, and
where reading goes on: at an argument, and at a place in the one before it if that is not zero. -/
structure OptionStep where
  value : Char
  argument : Option Chars := none
  problem : Chars := []
  next : Nat
  place : Nat := 0
  deriving DecidableEq, Repr

/-- The option with a letter, after which an argument has a rest. -/
def OptionStep.of (letters : Chars) (args : List Chars) (c : Char) (rest : Chars) (next place : Nat) :
    OptionStep :=
  let isQuiet := letters.head? = some ':'
  let missing := fun (value : Char) (problem : String) =>
    { value := if isQuiet then value else '?', argument := if isQuiet then some [c] else none
      problem := if isQuiet then [] else problem.toList, next
      place := if rest = [] then 0 else place : OptionStep }
  match OptionForm.of letters c with
  | .unknown => missing '?' ("Illegal option -" ++ String.ofList [c] ++ "\n")
  | .alone => { value := c, argument := some [], next, place := if rest = [] then 0 else place }
  | .withArgument =>
    match rest, args[next - 1]? with
    | [], some a => { value := c, argument := some a, next := next + 1 }
    | [], none => missing ':' ("No arg for -" ++ String.ofList [c] ++ " option\n")
    | rest, _ => { value := c, argument := some rest, next }

/-- The next option of arguments from a place on; none at the end of the options, with the place after
them. -/
def OptionStep.find (letters : Chars) (args : List Chars) (next place : Nat) :
    Except Nat OptionStep :=
  match if 0 < place ∧ 1 < next then ((args[next - 2]?).getD []).drop place else [] with
  | c :: rest => .ok (OptionStep.of letters args c rest next (place + 1))
  | [] =>
    match args[next - 1]? with
    | some ['-', '-'] => .error (next + 1)
    | some ('-' :: c :: rest) => .ok (OptionStep.of letters args c rest (next + 1) 2)
    | _ => .error next

/-- Read the next option of some arguments, or of those of the shell, into a variable. -/
def getopts (args : List Chars) : Step Nat := do
  match args with
  | letters :: name :: given => do
    let s ← get
    let next := max 1 (((s.value? "OPTIND".toList).bind natural?).getD 1)
    let step := OptionStep.find letters (if given = [] then s.args else given) next s.optionPlace
    let (value, next, place) := match step with
      | .ok o => (o.value, o.next, o.place)
      | .error next => ('?', next, 0)
    if let .ok o := step then
      modify (·.complain o.problem)
      match o.argument with
      | some a => modify (·.set "OPTARG".toList a)
      | none => modify (·.putVar "OPTARG".toList none)
    modify fun s => { s.set "OPTIND".toList (decimal next) with optionPlace := place }
    assign name [value]
    return if step.isOk then 0 else 1
  | _ => Step.abort "getopts: Usage: getopts optstring var [arg]".toList

end WarmCheck.Shell.Builtin

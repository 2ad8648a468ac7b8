import WarmCheck.Program
import WarmCheck.Shell.Builtin
import WarmCheck.Shell.Parser
import WarmCheck.Shell.Redirection

/-!
# Invocation

Which program a name stands for in a shell, and what programs that run others are asked to do.

* `firstImage`: the program for a name.
* `Request`: the arguments of a shell; `settings`: those of `env`.
-/

namespace WarmCheck.Shell

/-- A script that cannot be read on ends the shell. -/
def reject {α : Type} (p : Problem) : Step α := do
  modify fun s => { s with line := p.line.getD s.line }
  Step.abort p.text.toList

/-- Whether a word as it is written sets a variable. -/
def isAssignment (w : Chars) : Bool :=
  let name := w.takeWhile (· ≠ '=')
  isName name && name.length < w.length

/-- The files for which the name of a program may stand. -/
def candidates (s : State) (name : Chars) : List Path :=
  if name.contains '/' then [pathOf name]
  else if name = [] then []
  else
    ((s.value? "PATH".toList).elim [] (List.splitOn ':')).map fun dir =>
      Image.within (pathOf dir) (pathOf name)

/-- The program that the first of some files comes to that can be run. A file that is no program is
taken as a script of the shell. -/
def firstImage (d : Disk) (name : Chars) (args : List Chars) (fault : Errno) :
    List Path → Except Errno Image
  | [] => .error fault
  | p :: ps =>
    match Image.load d p (toBytes name) (args.map toBytes) with
    | .ok image => .ok image
    | .error (.os e) =>
      if e = .execFormat then .ok ⟨Utf8.ofString "sh", Utf8.ofString "/bin/sh", p.bytes :: args.map toBytes⟩
      else firstImage d name args (if e = .noEntry ∨ e = .notDirectory then fault else e) ps
    | .error _ => .error .noEntry

/-- What the name of a command stands for. -/
inductive Meaning where
  | keyword
  | special
  | builtin
  | function
  | program (path : Path)

/-- What the name of a command stands for, if there is such a command. -/
def meaning? (s : State) (name : Chars) : Option Meaning :=
  let text := String.ofList name
  if Parser.keywords.contains text then some .keyword
  else if Builtin.special.contains text then some .special
  else if (s.functions.lookup name).isSome then some .function
  else if Builtin.others.contains text || (Builtin.run? text []).isSome then some .builtin
  else ((candidates s name).find? s.disk.isFile).map .program

/-- Print what the name of a command stands for, in words or as it is called. The status tells whether
there is such a command. -/
def locate (inWords : Bool) (name : Chars) : Step Nat := do
  let s ← get
  let (said, status) : Chars × Nat := match meaning? s name, inWords with
    | some .keyword, true => (name ++ " is a shell keyword".toList, 0)
    | some .special, true => (name ++ " is a special shell builtin".toList, 0)
    | some .builtin, true => (name ++ " is a shell builtin".toList, 0)
    | some .function, true => (name ++ " is a shell function".toList, 0)
    | some (.program p), true => (name ++ " is ".toList ++ ofBytes p.bytes, 0)
    | some (.program p), false => (ofBytes p.bytes, 0)
    | some _, false => (name, 0)
    | none, true => (name ++ ": not found".toList, 127)
    | none, false => ([], 127)
  if said = [] then return status
  return max status (← Step.gauge (·.say (said ++ ['\n'])))

/-- The last status of something done for each of some names. -/
def forEach (f : Chars → Step Nat) (names : List Chars) : Step Nat :=
  names.foldlM (fun _ name => f name) 0

/-- Look for programs, and complain about the last that is missing. -/
def hash (name : Chars) : Step Nat := do
  if (meaning? (← get) name).isSome then return 0
  else Step.blame 1 ("hash: ".toList ++ name ++ ": not found".toList)

/-- What is said about a program that cannot be run, with the status. A name without a slash may stand
for nothing at all. -/
def launchProblem (s : State) (name : Chars) (e : Errno) : Chars × Nat :=
  let isMissing := e = .noEntry ∨ e = .notDirectory
  let isKnown := name.contains '/' || (candidates s name).any s.disk.isFile
  (name ++ ": ".toList ++ (if isMissing then "not found" else e.text).toList,
    if isMissing ∨ e = .linkLoop ∨ e = .nameTooLong ∨ !isKnown then 127 else 126)

/-- What a shell is asked to do by its arguments. -/
structure Request where
  options : List Char := []
  isText : Bool := false
  operands : List Chars := []
  deriving DecidableEq, Repr

/-- The options of a shell at the beginning of its arguments; or one that it does not know. -/
def Request.read (r : Request) : List Chars → Except Chars Request
  | [] => .ok r
  | ['-'] :: args | ['-', '-'] :: args => .ok { r with operands := args }
  | [sign, 'o'] :: name :: args =>
    match Builtin.letterOf? name with
    | some letter => read { r with
        options := if sign = '-' then letter.toList ++ r.options else r.options } args
    | none => .error ("Illegal option -o ".toList ++ name)
  | (sign :: letter :: letters) :: args =>
    if sign = '-' ∨ sign = '+' then
      let letters := letter :: letters
      match letters.find? fun c => c ≠ 'c' ∧ !optionLetters.contains c with
      | some c => .error ("Illegal option -".toList ++ [c])
      | none => read { r with
          options := if sign = '-' then r.options ++ letters.filter (· ≠ 'c') else r.options
          isText := r.isText || letters.contains 'c' } args
    else .ok { r with operands := (sign :: letter :: letters) :: args }
  | a :: args => .ok { r with operands := a :: args }

/-- A shell at its start: its own variables, and the directory as it is told by the environment if that
is where the shell is. -/
def atStart (s : State) : State :=
  let told := ((s.value? "PWD".toList).filter fun p =>
    p.head? = some '/' && s.disk.place? true (pathOf p) == some s.disk.cwd).getD
      (ofBytes (Place.path s.disk.cwd).bytes)
  let own := [("PPID", decimal (s.pid - 1)), ("OPTIND", ['1']), ("IFS", usualSeparators)]
  let path := "/usr/local/sbin:/usr/local/bin:/usr/sbin:/usr/bin:/sbin:/bin".toList
  let usual := [("PATH", path), ("PS1", ['$', ' ']), ("PS2", ['>', ' ']), ("PS4", ['+', ' '])].filter fun v =>
    (s.var? v.1.toList).isNone
  let s := (own ++ usual).foldl (fun s (name, value) =>
    s.putVar name.toList (some { value := some value })) s
  { s.putVar "PWD".toList (some { value := some told, isExported := true }) with dir := some told }

/-- A script, the options and the arguments of a shell that is asked for something, or why it cannot
begin. -/
def Request.script (r : Request) (s : State) : Except Chars (Chars × State) :=
  let s := { atStart s with options := r.options }
  match r.isText, r.operands with
  | true, [] => .error "-c requires an argument".toList
  | true, text :: operands =>
    .ok (text, { s with name := operands.head?.getD s.name, args := operands.drop 1 })
  | false, [] => .ok (ofBytes ((s.read? 0).getD []), { s with args := [] })
  | false, file :: args =>
    if r.options.contains 's' then .ok (ofBytes ((s.read? 0).getD []), { s with args := file :: args })
    else
    match s.disk.read (pathOf file) with
    | .ok text => .ok (ofBytes text, { s with name := file, args })
    | .error e => .error (openProblem true file e)

/-- The settings and the command that `env` is given, or an option that it does not know. Settings are
variables with their values, or without where they are to be removed. -/
def settings : List Chars → Except Chars (Bool × List (Chars × Option Chars) × List Chars)
  | [] => .ok (false, [], [])
  | ['-'] :: args | ['-', 'i'] :: args => do
    let (_, vars, rest) ← settings args
    return (true, vars, rest)
  | ['-', 'u'] :: name :: args => do
    let (isEmpty, vars, rest) ← settings args
    return (isEmpty, (name, none) :: vars, rest)
  | ['-', '-'] :: args => .ok (false, [], args)
  | ('-' :: 'S' :: text) :: args =>
    .ok (false, [], (List.splitOn ' ' text).filter (· ≠ []) ++ args)
  | ('-' :: option) :: _ => .error option
  | a :: args =>
    if a.contains '=' then do
      let (isEmpty, vars, rest) ← settings args
      return (isEmpty, Builtin.definition a :: vars, rest)
    else .ok (false, [], a :: args)

end WarmCheck.Shell

import WarmCheck.Program
import WarmCheck.Shell.Builtin.Input
import WarmCheck.Shell.Builtin.Options
import WarmCheck.Shell.Builtin.Signals
import WarmCheck.Shell.Utility

/-!
# Commands of the shell itself

The commands that work on the shell and run nothing else.

* `Builtin.run?`: what such a command does.
-/

namespace WarmCheck.Shell.Builtin

/-! ## Leaving -/

/-- The number that an argument spells, or else a status that is usual. -/
def statusArgument (name : String) (usual : State → Nat) (args : List Chars) : Step Nat := do
  match args with
  | [] => return usual (← get)
  | a :: _ =>
    match natural? a with
    | some n => if n < 0x80000000 then return n % 256 else noNumber name a
    | none => noNumber name a

/-- Leave loops, as many as an argument says, as far as there are any. -/
def leave (name : String) (jump : Nat → Jump) (args : List Chars) : Step Nat := do
  let loops := (← get).loops
  match args.head?.elim (some 1) natural? with
  | some (n + 1) => if loops = 0 then return 0 else throw (jump (min (n + 1) loops))
  | _ => noNumber name (args.head?.getD [])

/-! ## The directory -/

/-- The directory as it is told. -/
def directory (s : State) : Chars := s.dir.getD (ofBytes (Place.path s.disk.cwd).bytes)

/-- A path without dots, where two dots take away the name before them. -/
def normal (cs : Chars) : Chars :=
  let names := (List.splitOn '/' cs).foldl (fun ns n =>
    if n = [] ∨ n = ['.'] then ns else if n = ['.', '.'] then ns.dropLast else ns ++ [n]) []
  '/' :: joined ['/'] names

/-- The directories below which a path is looked for that does not begin at the root or with dots; an
empty one stands for the directory itself. -/
def starts (s : State) (wanted : Chars) : List Chars :=
  let hasStart := wanted.head? = some '/' ∨
    (List.splitOn '/' wanted).head?.any fun n => n = ['.'] ∨ n = ['.', '.']
  if hasStart then [[]] else ((s.value? "CDPATH".toList).elim [] (List.splitOn ':')) ++ [[]]

/-- Enter a directory. Two dots lead back to where a link has been followed, unless links count as the
directories that they lead to. -/
def cd (args : List Chars) : Step Nat := do
  let s ← get
  let (flags, args) := (args.takeWhile fun a => a = ['-', 'P'] ∨ a = ['-', 'L'] ∨ a = ['-', '-'],
    args.dropWhile fun a => a = ['-', 'P'] ∨ a = ['-', 'L'] ∨ a = ['-', '-'])
  let isPhysical := flags.contains ['-', 'P']
  let wanted := match args with
    | [] => (s.value? "HOME".toList).getD []
    | ['-'] :: _ => (s.value? "OLDPWD".toList).getD []
    | a :: _ => a
  if wanted = [] then return 0
  let start := ((starts s wanted).find? fun start =>
    s.disk.isDir (Image.within (pathOf start) (pathOf wanted))).getD []
  let target := ofBytes (Image.within (pathOf start) (pathOf wanted)).bytes
  let whole := if target.head? = some '/' then target else directory s ++ '/' :: target
  match s.disk.find true (pathOf (if isPhysical then target else normal whole)) with
  | .ok (.node place (.dir mode _)) =>
    if Disk.may 1 mode then
      let path := if isPhysical then ofBytes (Place.path place).bytes else normal whole
      let put := fun (name : String) (value : Chars) (s : State) =>
        s.putVar name.toList (some { value := some value, isExported := true })
      set { put "PWD" path (put "OLDPWD" (directory s) s) with
        disk := { s.disk with cwd := place }
        dir := some path }
      if args.head? = some ['-'] ∨ start ≠ [] then Step.gauge (·.say (path ++ ['\n'])) else return 0
    else Step.blame 2 ("cd: can't cd to ".toList ++ wanted)
  | _ => Step.blame 2 ("cd: can't cd to ".toList ++ wanted)

/-- Print the directory as it has been entered, or without links. -/
def pwd (args : List Chars) : Step Nat :=
  Step.gauge fun s =>
    let here := if args.contains ['-', 'P'] then ofBytes (Place.path s.disk.cwd).bytes else directory s
    s.say (here ++ ['\n'])

/-- Print or set the rights that new files are said to be without. -/
def umask (args : List Chars) : Step Nat :=
  Step.gauge fun s =>
    match args with
    | a :: _ => ({ s with mask := ((Sum.inBase? 8 a).getD s.mask) % 512 }, 0)
    | [] =>
      let digits := Nat.toDigits 8 s.mask
      s.say (List.replicate (4 - digits.length) '0' ++ digits ++ ['\n'])

/-! ## All of them -/

/-- The commands after whose faults a shell does not go on, and whose assignments stay. -/
def special : List String :=
  [".", ":", "break", "continue", "eval", "exec", "exit", "export", "readonly", "return", "set", "shift",
    "times", "trap", "unset"]

/-- The other commands that are carried out where commands are. -/
def others : List String := ["command", "type", "hash"]

/-- Wait for commands that have not been waited for. -/
def wait (args : List Chars) : Step Nat := do
  let s ← get
  return args.foldl (fun _ a => ((natural? a).bind fun n => s.jobs.lookup n).getD 127) 0

/-- Print arguments put into a format. -/
def printf (args : List Chars) : Step Nat := do
  match args.dropWhile (· = ['-', '-']) with
  | [] => Step.blame 2 "printf: usage: printf format [arg ...]".toList
  | format :: args => do
    let (text, problem) := Format.print format args
    let status ← Step.gauge (·.say text)
    match problem with
    | some p => Step.blame p.status ("printf: ".toList ++ p.text)
    | none => return status

/-- What a command of the shell does; `none` for a name that it has no such command for. -/
def run? (name : String) (args : List Chars) : Option (Step Nat) :=
  match name with
  | ":" | "true" | "times" | "alias" | "unalias" | "ulimit" => some (pure 0)
  | "false" => some (pure 1)
  | "echo" => some (Step.gauge (·.say (echo true args)))
  | "printf" => some (printf args)
  | "test" => some (Step.gauge (Utility.test false args))
  | "[" => some (Step.gauge (Utility.test true args))
  | "pwd" => some (pwd args)
  | "umask" => some (umask args)
  | "cd" => some (cd args)
  | "read" => some (read args)
  | "kill" => some (kill args)
  | "trap" => some (trap args)
  | "wait" => some (wait args)
  | "exit" => some do
    throw (.shell (.code (← statusArgument name (fun s => s.final.getD s.status) args)))
  | "return" => some do
    Step.setStatus (← statusArgument name (·.status) args)
    throw .function
  | "break" => some (leave "break" .loops args)
  | "continue" => some (leave "continue" .turn args)
  | "export" => some (declare name (·.isExported) (fun v => { v with isExported := true }) args)
  | "readonly" => some (declare name (·.isConstant) (fun v => { v with isConstant := true }) args)
  | "local" => some (declareLocal args)
  | "unset" => some (unset args)
  | "set" => some (setAll args)
  | "shift" => some (shift args)
  | "getopts" => some (getopts args)
  | _ => none

end WarmCheck.Shell.Builtin

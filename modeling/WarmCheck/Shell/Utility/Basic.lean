import WarmCheck.Shell.State

/-!
# Utilities in general

* `Utility.Action`: what a utility does.
* `Utility.withOptions`, `Utility.eachOf`, `Utility.needing`: how utilities deal with their arguments.
-/

namespace WarmCheck.Shell.Utility

/-- What a utility does to the state of the process that runs it, and its status. -/
abbrev Action := State → State × Nat

/-- The status zero for success, one otherwise. -/
def statusOf (ok : Bool) : Nat := if ok then 0 else 1

/-- A complaint of a utility. -/
def complain (cs : Chars) (status : Nat) : Action := fun s =>
  (s.complain (s.name ++ ": ".toList ++ cs ++ ['\n']), status)

/-- A complaint about the arguments of a utility. -/
def misuse (cs : Chars) (status : Nat) : Action := fun s =>
  let (s, status) := complain cs status s
  (s.complain ("Try '".toList ++ s.name ++ " --help' for more information.\n".toList), status)

/-- A complaint of a utility that has been given nothing to do. -/
def misuseUsage (usage : String) (status : Nat) : Action := fun s =>
  (s.complain (("Usage: " ++ usage ++ "\nTry '").toList ++ s.name ++
    " --help' for more information.\n".toList), status)

/-- What a fault is called in complaints. -/
def faultText : Fault → Chars
  | .os e => e.text.toList
  | e => e.message.toList

/-- An action for each of some arguments; the status tells whether any has failed. -/
def eachOf (f : Chars → Action) (args : List Chars) : Action := fun s =>
  args.foldl (fun (s, status) a =>
    let (s, n) := f a s
    (s, max status n)) (s, 0)

/-- Arguments that begin with a dash, without the dashes, and the others. After two dashes there are
only others. -/
def options : List Chars → List Chars × List Chars
  | [] => ([], [])
  | ['-', '-'] :: args => ([], args)
  | ('-' :: c :: cs) :: args =>
    let (os, rest) := options args
    ((c :: cs) :: os, rest)
  | a :: args =>
    let (os, rest) := options args
    (os, a :: rest)

/-- Carry out an action if all options consist of letters that are known. -/
def withOptions (known : List Char) (args : List Chars) (status : Nat)
    (f : List Char → List Chars → Action) : Action :=
  let (os, rest) := options args
  match os.find? fun o => o.any (!known.contains ·) with
  | some ('-' :: o) => misuse ("unrecognized option '--".toList ++ o ++ ['\'']) status
  | some o =>
    let letter := (o.filter (!known.contains ·)).take 1
    misuse ("invalid option -- '".toList ++ letter ++ ['\'']) status
  | none => f os.flatten rest

/-- A utility that needs at least one argument. -/
def needing (args : List Chars) (f : Action) : Action :=
  if args = [] then misuse "missing operand".toList 1 else f

end WarmCheck.Shell.Utility

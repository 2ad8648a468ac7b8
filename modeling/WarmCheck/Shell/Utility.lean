import WarmCheck.Shell.Utility.Print
import WarmCheck.Shell.Utility.Streams

/-!
# Utilities

The small programs that scripts use to print and to work on files.

* `Utility.run?`: what a utility does, and the status with which it ends.
-/

namespace WarmCheck.Shell.Utility

/-- What a utility of a name does. -/
def run? (name : String) (args : List Chars) : Option Action :=
  match name with
  | "true" => some fun s => (s, 0)
  | "false" => some fun s => (s, 1)
  | "sleep" => some (needing args (sleep args))
  | "echo" => some fun s => s.say (echoed args)
  | "printf" => some (printf args)
  | "pwd" => some fun s => s.say (ofBytes (Place.path s.disk.cwd).bytes ++ ['\n'])
  | "test" => some (test false args)
  | "[" => some (test true args)
  | "cat" => some (withOptions ['u', 'n'] args 1 cat)
  | "head" => some (extract true args)
  | "tail" => some (extract false args)
  | "grep" => some (withOptions ['q', 'c', 'v', 'i', 'l', 'F', 'x', 'e', 's', 'h', 'n'] args 2 grep)
  | "sort" => some (withOptions ['n', 'r', 'u'] args 2 sort)
  | "uniq" => some (withOptions ['c', 'd', 'u'] args 1 uniq)
  | "cut" => some (cut args)
  | "yes" => some (yes args)
  | "printenv" => some (printenv args)
  | "tr" => some (withOptions ['d', 's', 'c', 'C'] args 1 tr)
  | "expr" => some (expr args)
  | "readlink" => some (eachOf readlink args)
  | "realpath" => some (needing args (eachOf realpath args))
  | "wc" => some (withOptions ['l', 'w', 'c'] args 1 wc)
  | "tee" => some (withOptions ['a'] args 1 tee)
  | "seq" => some (seq args)
  | "basename" => some (basename args)
  | "dirname" => some (needing args (dirname args))
  | "ls" => some (withOptions ['1', 'A', 'a', 'd'] args 2 fun os args =>
      eachOf (ls os) (if args = [] then [['.']] else args))
  | "touch" => some (withOptions ['a', 'm', 'c'] args 1 fun _ args =>
      needing args (eachOf touch args))
  | "rm" => some (withOptions ['r', 'R', 'f', 'v'] args 1 fun os args =>
      if os.contains 'f' then eachOf (rm os) args else needing args (eachOf (rm os) args))
  | "rmdir" => some (needing args (eachOf rmdir args))
  | "mkdir" => some (withOptions ['p'] args 1 fun os args =>
      needing args (eachOf (mkdir os) args))
  | "mv" | "cp" | "ln" => some (withOptions ['f', 's', 'r', 'R', 'a', 'p', 'n'] args 1 fun os args =>
      match sources? args with
      | some (ss, t) =>
        if name = "mv" then eachOf (mv t) ss
        else if name = "cp" then eachOf (cp os t) ss
        else eachOf (ln os t) ss
      | none => misuse "missing file operand".toList 1)
  | "chmod" =>
    match args with
    | spec :: files => some (needing files (eachOf (chmod spec) files))
    | [] => some (misuse "missing operand".toList 1)
  | _ => none

end WarmCheck.Shell.Utility

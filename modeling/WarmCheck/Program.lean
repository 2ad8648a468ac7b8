import WarmCheck.Disk.Walk
import WarmCheck.Environment

/-!
# Programs

What the system starts when it is asked to run a file. A file holds a program of the machine, or is a
script whose first line names an interpreter, which may be a script in turn.

* `Interpreter.ofScript?`: the interpreter that a script names.
* `Image.load`: the program and the arguments that running a file comes to.
* `Image.search`: the same for a name that is looked for in a list of directories.
-/

namespace WarmCheck

/-- How the files of native programs begin; the name of the program follows. -/
def nativeMark : Bytes := [0x7F, 0x45, 0x4C, 0x46, 2, 1, 1, 0, 0, 0, 0, 0, 0, 0, 0, 0]

/-- The name of the native program that a file of some content holds. -/
def native? (content : Bytes) : Option Name :=
  (List.isPrefixOf? nativeMark content).filter fun name => name ≠ [] ∧ name.all (32 < ·)

/-! ## Interpreters -/

/-- The file that runs a script, and the argument that it is given before the script. -/
structure Interpreter where
  file : Path
  option : Option Bytes
  deriving DecidableEq, Repr

namespace Interpreter

/-- The number of octets of a file that are looked at; a file that has less ends in zeros. -/
def window : Nat := 256

/-- A space or a tab. -/
def isGap (b : UInt8) : Bool := b == 32 || b == 9

/-- A gap or a zero. -/
def endsName (b : UInt8) : Bool := isGap b || b == 0

/-- The line that begins a window, after its first two octets. Without an end of line in the window it
is cut before the last octet, which is allowed only where a name has come to its end by then. -/
def line? (seen : Bytes) : Option Bytes :=
  let head := seen.takeWhile fun b => b ≠ 10 ∧ b ≠ 0
  if (seen.drop head.length).head? = some 10 then some (head.drop 2)
  else if ((seen.drop 2).dropWhile isGap).any endsName then some ((seen.take (window - 1)).drop 2)
  else none

/-- The interpreter on the first line of a script: a name, and what follows it as one argument. -/
def ofLine? (line : Bytes) : Option Interpreter :=
  let trimmed := ((line.reverse.dropWhile isGap).reverse).dropWhile isGap
  let name := trimmed.takeWhile (!endsName ·)
  let rest := trimmed.drop name.length
  if trimmed = [] then none
  else
    some {
      file := ⟨name⟩
      option := if rest.head?.any isGap then
        some ((rest.dropWhile isGap).takeWhile (· ≠ 0)) else none }

/-- The interpreter that a file names, if it is a script. -/
def ofScript? (content : Bytes) : Option Interpreter :=
  match content with
  | 35 :: 33 :: _ => (line? ((content ++ List.replicate window 0).take window)).bind ofLine?
  | _ => none

end Interpreter

/-! ## Images -/

/-- A program of the machine, with the name by which it is called and the arguments that it is run
with. -/
structure Image where
  program : Name
  calledAs : Bytes
  args : List Bytes
  deriving DecidableEq, Repr

namespace Image

/-- The number of interpreters that may lead from a file to a native program. -/
def maxInterpreters : Nat := 5

/-- The content of a file that may be run. Without a name it is the current directory, which may
not. -/
def content (d : Disk) (p : Path) : Except Fault Bytes := do
  if p.bytes = [] then throw (.os .accessDenied)
  match ← d.lookup true p with
  | .file content mode => if Disk.may 1 mode then return content else .error (.os .accessDenied)
  | _ => .error (.os .accessDenied)

/-- The program that a file of some content comes to, through at most so many interpreters. -/
def loadWithin (d : Disk) : Nat → Path → Bytes → Bytes → List Bytes → Except Fault Image
  | interpreters, p, text, calledAs, args =>
    match native? text, Interpreter.ofScript? text with
    | some program, _ => .ok ⟨program, calledAs, args⟩
    | none, none => .error (.os .execFormat)
    | none, some i => do
      let inner ← content d i.file
      match interpreters with
      | 0 => .error (.os .linkLoop)
      | n + 1 => loadWithin d n i.file inner i.file.bytes (i.option.toList ++ p.bytes :: args)

/-- The program that running a file comes to. -/
def load (d : Disk) (p : Path) (calledAs : Bytes) (args : List Bytes) : Except Fault Image := do
  loadWithin d maxInterpreters p (← content d p) calledAs args

/-! ## Looking for a program -/

/-- The directories in which programs are looked for. -/
def searchPath (env : Environment) : List Path :=
  (List.splitOn 58 ((env.get? "PATH").getD (Utf8.ofString "/bin:/usr/bin"))).map Path.mk

/-- The path of a program in a directory; an empty path stands for the current directory. -/
def within (dir program : Path) : Path :=
  if dir.bytes = [] then program else ⟨dir.bytes ++ Path.slash :: program.bytes⟩

/-- The first program of a name in a list of directories, with the path at which it is. What may not be
run is passed over, but remembered. -/
def search (d : Disk) (program : Path) (args : List Bytes) (fault : Fault) :
    List Path → Except Fault Image
  | [] => .error fault
  | dir :: dirs =>
    match load d (within dir program) program.bytes args with
    | .ok image => .ok image
    | .error (.os e) =>
      if e = .accessDenied then search d program args (.os e) dirs
      else if e = .noEntry ∨ e = .notDirectory then search d program args fault dirs
      else .error (.os e)
    | .error e => .error e

/-- The program that a name stands for. A name with a slash in it is a path. -/
def find (d : Disk) (env : Environment) (program : Path) (args : List Bytes) : Except Fault Image :=
  if program.bytes = [] then .error (.os .noEntry)
  else if program.bytes.contains Path.slash then load d program program.bytes args
  else if Disk.maxName < program.bytes.length then .error (.os .nameTooLong)
  else search d program args (.os .noEntry) (searchPath env)

end Image

end WarmCheck

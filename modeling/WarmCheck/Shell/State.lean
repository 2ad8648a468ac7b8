import WarmCheck.Shell.Command
import WarmCheck.Shell.Octets
import WarmCheck.Disk.Change
import WarmCheck.Environment

/-!
# The state of a shell

* `Channel`: what a descriptor can stand for.
* `State`: all that a shell knows; `State.write?`, `State.read?` and others.
* `Jump`, `Step`: steps of a shell, which may leave what encloses them.
-/

namespace WarmCheck.Shell

/-- How a process ends. -/
inductive Ending where
  | code (n : Nat)
  | signal (n : Nat)
  deriving DecidableEq, Repr

namespace Ending

/-- Whether a process has ended with code zero. -/
def isSuccess : Ending → Bool
  | code 0 => true
  | _ => false

/-- The status of a command whose process ends so. -/
def status : Ending → Nat
  | code n => n
  | signal n => 128 + n

end Ending

/-! ## Options -/

/-- The options of a shell, each with its letter if it has one. -/
def allOptions : List (String × Option Char) :=
  [("errexit", 'e'), ("noglob", 'f'), ("ignoreeof", 'I'), ("interactive", 'i'), ("monitor", 'm'),
    ("noexec", 'n'), ("stdin", 's'), ("xtrace", 'x'), ("verbose", 'v'), ("vi", 'V'), ("emacs", 'E'),
    ("noclobber", 'C'), ("allexport", 'a'), ("notify", 'b'), ("nounset", 'u'), ("privileged", 'p'),
    ("nolog", none), ("debug", none)]

/-- The letters of the options. -/
def optionLetters : List Char := allOptions.filterMap (·.2)

/-! ## Channels -/

/-- Something that has been opened. -/
inductive Channel where
  /-- What is written to it is lost, and nothing is read from it. -/
  | void
  | source (rest : Bytes)
  /-- All that has been written, the last first. -/
  | sink (chunks : List Bytes)
  /-- A file, and where it is read or written next, which is always its end if it is extended. -/
  | file (place : Place) (offset : Nat) (appends : Bool)
  deriving Repr

namespace Channel

/-- All that has been written to a sink. -/
def written : Channel → Bytes
  | sink chunks => chunks.reverse.flatten
  | void | source _ | file .. => []

end Channel

/-! ## Variables -/

/-- A variable: its value, if it is set, and whether programs see it. -/
structure Var where
  value : Option Chars
  isExported : Bool := false
  isConstant : Bool := false
  deriving DecidableEq, Repr

/-- All that a shell knows. What is open is known under numbers, to which the descriptors point. -/
structure State where
  disk : Disk
  channels : List Channel := []
  fds : List (Nat × Nat) := []
  vars : List (Chars × Var) := []
  name : Chars := []
  args : List Chars := []
  functions : List (Chars × Command) := []
  options : List Char := []
  /-- What is to be done on a signal, or under the number zero at the end; nothing for an empty text. -/
  traps : List (Nat × Chars) := []
  /-- What is to be done because of signals that have come. -/
  due : List Chars := []
  /-- The loops that a command is in. -/
  loops : Nat := 0
  /-- The directory as it has been entered, if links have led there. -/
  dir : Option Chars := none
  /-- The rights that new files are said to be without. -/
  mask : Nat := 0o022
  /-- The place in an argument that holds several options, where their reading goes on. -/
  optionPlace : Nat := 0
  /-- The variables that functions which run have saved, those of the innermost function first. -/
  saved : List (List (Chars × Option Var)) := []
  status : Nat := 0
  /-- The status with which the shell ends, while that is done which is to be done at the end. -/
  final : Option Nat := none
  /-- The status of the last script whose output was put in. -/
  printed : Nat := 0
  line : Nat := 0
  /-- What complaints begin with, after the line. -/
  label : Chars := []
  /-- The number of the process, and that of the last command that is not waited for. -/
  pid : Nat := 2
  last : Option Nat := none
  /-- The statuses of commands that have not been waited for. -/
  jobs : List (Nat × Nat) := []

namespace State

/-! ## Values -/

/-- A variable. -/
def var? (s : State) (name : Chars) : Option Var := s.vars.lookup name

/-- The value of a variable. -/
def value? (s : State) (name : Chars) : Option Chars := (s.var? name).bind (·.value)

/-- With another variable of a name, or with none. -/
def putVar (s : State) (name : Chars) (v : Option Var) : State :=
  let rest := s.vars.filter (·.1 ≠ name)
  { s with vars := match v with
    | some v => (name, v) :: rest
    | none => rest }

/-- With a value in a variable. -/
def set (s : State) (name value : Chars) : State :=
  let old := (s.var? name).getD ⟨none, s.options.contains 'a', false⟩
  s.putVar name (some { old with value := some value })

/-- The variables that programs see. -/
def environment (s : State) : Environment :=
  ⟨(s.vars.filter (·.2.isExported)).filterMap fun (name, v) =>
    v.value.map fun value => (String.ofList name, toBytes value)⟩

/-- The variables of a shell that is started in an environment. -/
def varsOf (env : Environment) : List (Chars × Var) :=
  env.entries.map fun (name, value) => (name.toList, { value := some (ofBytes value), isExported := true })

/-! ## Channels -/

/-- With another channel that is open, and its number. -/
def openChannel (s : State) (c : Channel) : State × Nat :=
  ({ s with channels := s.channels ++ [c] }, s.channels.length)

/-- With a descriptor that stands for an open channel, or for nothing. -/
def point (s : State) (fd : Nat) (channel : Option Nat) : State :=
  let rest := s.fds.filter (·.1 ≠ fd)
  { s with fds := match channel with
    | some n => (fd, n) :: rest
    | none => rest }

/-- The number of what a descriptor stands for, and what it is. -/
def channel? (s : State) (fd : Nat) : Option (Nat × Channel) := do
  let n ← s.fds.lookup fd
  return (n, ← s.channels[n]?)

/-- With another channel under a number. -/
def putChannel (s : State) (n : Nat) (c : Channel) : State := { s with channels := s.channels.set n c }

/-- A text with octets written over it from an offset on; what lies before is filled with zeros. -/
def overwrite (old : Bytes) (offset : Nat) (bs : Bytes) : Bytes :=
  old.take offset ++ List.replicate (offset - old.length) 0 ++ bs ++ old.drop (offset + bs.length)

/-- Write to a descriptor; `none` if it stands for nothing that can be written. -/
def write? (s : State) (fd : Nat) (bs : Bytes) : Option State := do
  match ← s.channel? fd with
  | (_, .void) => return s
  | (_, .source _) => none
  | (n, .sink chunks) => return s.putChannel n (.sink (bs :: chunks))
  | (n, .file place offset appends) =>
    match s.disk.top.get? place with
    | some (.file old mode) =>
      let here := if appends then old.length else offset
      let s := s.putChannel n (.file place (here + bs.length) appends)
      return { s with disk := s.disk.put place (.file (overwrite old here bs) mode) }
    | _ => return s

/-- All that is left to be read from a descriptor. -/
def read? (s : State) (fd : Nat) : Option Bytes := do
  match ← s.channel? fd with
  | (_, .void) | (_, .sink _) => return []
  | (_, .source rest) => return rest
  | (_, .file place offset _) =>
    match s.disk.top.get? place with
    | some (.file data _) => return data.drop offset
    | _ => return []

/-- After some octets have been read from a descriptor. -/
def consume (s : State) (fd count : Nat) : State :=
  match s.channel? fd with
  | some (n, .source rest) => s.putChannel n (.source (rest.drop count))
  | some (n, .file place offset appends) => s.putChannel n (.file place (offset + count) appends)
  | _ => s

/-- Print on standard output, with the status of having done so. -/
def say (s : State) (cs : Chars) : State × Nat :=
  match s.write? 1 (toBytes cs) with
  | some s => (s, 0)
  | none => (s, 1)

/-- Print on standard error. -/
def complain (s : State) (cs : Chars) : State := (s.write? 2 (toBytes cs)).getD s

/-- A complaint of the shell itself, with the line that it is about. -/
def blame (s : State) (cs : Chars) : State :=
  s.complain (s.name ++ ": ".toList ++ decimal s.line ++ ": ".toList ++ s.label ++ cs ++ ['\n'])

/-! ## Processes -/

/-- A process that this one starts: it has the same descriptors, and sees the exported variables. -/
def child (s : State) : State :=
  { disk := s.disk, channels := s.channels, fds := s.fds, vars := varsOf s.environment
    pid := s.pid + 1 }

/-- The state after a process has come to its end: what it has done to the disk and to what is open. -/
def after (s t : State) : State :=
  { s with disk := { t.disk with cwd := s.disk.cwd }, channels := t.channels }

end State

/-! ## Steps -/

/-- What a step leaves, beyond itself. -/
inductive Jump where
  /-- So many loops. -/
  | loops (n : Nat)
  /-- One loop fewer than so many, and this turn of the last. -/
  | turn (n : Nat)
  /-- The function, or the script that is read. -/
  | function
  /-- The shell; a shell that another has split off ends alone. -/
  | shell (e : Ending)
  /-- The process, because of a signal. -/
  | process (signal : Nat)
  deriving DecidableEq, Repr

/-- Steps of a shell. -/
abbrev Step := ExceptT Jump (StateM State)

namespace Step

/-- A step that may jump, and whether it has. -/
def attempt {α : Type} (x : Step α) : Step (Except Jump α) := fun s =>
  let (r, s) := x.run s
  (.ok r, s)

/-- Set the status of the last command. -/
def setStatus (n : Nat) : Step Unit := modify fun s => { s with status := n }

/-- Carry out what changes the state and gives a status. -/
def gauge (f : State → State × Nat) : Step Nat := modifyGet fun s => ((f s).2, (f s).1)

/-- Complain, with a status. -/
def blame (status : Nat) (cs : Chars) : Step Nat := do
  modify (·.blame cs)
  return status

/-- Complain, and end the shell. -/
def abort {α : Type} (cs : Chars) : Step α := do
  modify (·.blame cs)
  throw (.shell (.code 2))

end Step

end WarmCheck.Shell

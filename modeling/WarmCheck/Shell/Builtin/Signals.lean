import WarmCheck.Shell.Quote
import WarmCheck.Shell.State

/-!
# Signals

* `Builtin.raise`: a signal that the shell gets.
* `Builtin.kill`, `Builtin.trap`: the commands that send signals and wait for them.
-/

namespace WarmCheck.Shell.Builtin

/-- The names of signals from one on, and what is said about processes that they end. A signal may
have nothing but its number for a name. -/
def signals : List (String × String) :=
  [("HUP", "Hangup"), ("INT", ""), ("QUIT", "Quit"), ("ILL", "Illegal instruction"),
    ("TRAP", "Trace/breakpoint trap"), ("ABRT", "Aborted"), ("BUS", "Bus error"),
    ("FPE", "Floating point exception"), ("KILL", "Killed"), ("USR1", "User defined signal 1"),
    ("SEGV", "Segmentation fault"), ("USR2", "User defined signal 2"), ("PIPE", ""),
    ("ALRM", "Alarm clock"), ("TERM", "Terminated"), ("16", "Stack fault"), ("CHLD", ""),
    ("CONT", ""), ("STOP", ""), ("TSTP", ""), ("TTIN", ""), ("TTOU", ""), ("URG", ""),
    ("XCPU", "CPU time limit exceeded"), ("XFSZ", "File size limit exceeded"),
    ("VTALRM", "Virtual timer expired"), ("PROF", "Profiling timer expired"), ("WINCH", ""),
    ("IO", "I/O possible"), ("PWR", "Power failure"), ("SYS", "Bad system call")]

/-- What is said about a process that a signal has ended. -/
def farewell (n : Nat) : Chars :=
  match (signals[n - 1]?).map (·.2) with
  | some "" | none => []
  | some text => text.toList ++ ['\n']

/-- The signals for times to come have names that tell how far they are from an end of their row. -/
def lateNames : List String :=
  ["32", "33", "RTMIN"] ++ (List.range 15).map (fun i => "RTMIN+" ++ toString (i + 1)) ++
    (List.range 14).map (fun i => "RTMAX-" ++ toString (14 - i)) ++ ["RTMAX"]

/-- The names of all signals from one on. -/
def signalNames : List String := signals.map (·.1) ++ lateNames

/-- The signal that asks a process to end. -/
def termSignal : Nat := 15

/-- The signals that change nothing unless something is to be done on them. -/
def idleSignals : List Nat := [17, 18, 23, 28]

/-- The signals on which nothing else can be done. -/
def firmSignals : List Nat := [9, 19]

/-- The number of a signal, given by its number or by its name in letters of any case. -/
def signal? (cs : Chars) : Option Nat :=
  match natural? cs with
  | some n => if n ≤ 64 then some n else none
  | none =>
    let name := String.ofList (cs.map Char.toUpper)
    if name = "EXIT" then some 0 else (signalNames.findIdx? (· = name)).map (· + 1)

/-- The name of a signal; the end of the shell counts as one. -/
def nameOf (n : Nat) : Chars := if n = 0 then "EXIT".toList else ((signalNames[n - 1]?).getD "").toList

/-- A signal comes. -/
def raise (n : Nat) : Step Unit := do
  match (← get).traps.lookup n, firmSignals.contains n with
  | some [], false => pure ()
  | some action, false => modify fun s => { s with due := s.due ++ [action] }
  | _, _ => if n = 0 ∨ idleSignals.contains n then pure () else throw (.process n)

/-! ## Sending -/

/-- Send a signal to a process. -/
def send (n : Nat) (target : Chars) : Step Nat := do
  let s ← get
  match natural? target with
  | some pid =>
    if pid = s.pid then do
      raise n
      return 0
    else if (s.jobs.lookup pid).isSome then return 0
    else Step.blame 1 "kill: No such process\n".toList
  | none => Step.blame 2 ("kill: Illegal number: ".toList ++ target)

/-- Send a signal to all of some processes. -/
def sendAll (n : Nat) (targets : List Chars) : Step Nat :=
  targets.foldlM (fun status t => do return max status (← send n t)) 0

/-- Print the names of all signals, or that of the signal with which a process has ended. -/
def listSignals : List Chars → Step Nat
  | [] => Step.gauge (·.say (['0', '\n'] ++ signalNames.flatMap fun name => name.toList ++ ['\n']))
  | a :: _ =>
    match natural? a with
    | some n => Step.gauge (·.say (nameOf (if 128 < n then n - 128 else n) ++ ['\n']))
    | none => Step.blame 2 ("kill: Illegal number: ".toList ++ a)

/-- How signals are sent. -/
def usage : Chars :=
  ("kill: Usage: kill [-s sigspec | -signum | -sigspec] [pid | job]... or\n" ++
    "kill -l [exitstatus]").toList

/-- Send a signal, which is given by a number or a name, or is the one that asks processes to end. -/
def kill (args : List Chars) : Step Nat :=
  let named := fun (name : Chars) (targets : List Chars) =>
    match signal? name with
    | some n => sendAll n targets
    | none => Step.blame 2 ("kill: invalid signal number or name: ".toList ++ name)
  match args with
  | [] => Step.blame 2 usage
  | ['-', 's'] :: name :: targets => named name targets
  | ['-', '-'] :: targets => sendAll termSignal targets
  | ['-', 'l'] :: rest => listSignals rest
  | ('-' :: c :: name) :: targets =>
    match signal? (c :: name) with
    | some n => sendAll n targets
    | none =>
      if c = 's' then named name targets
      else Step.blame 2 ("kill: Illegal option -".toList ++ [c])
  | targets => sendAll termSignal targets

/-! ## Waiting for signals -/

/-- Print what is to be done on signals, as commands that say so. -/
def listTraps (s : State) : State × Nat :=
  let inOrder := s.traps.mergeSort fun a b => a.1 ≤ b.1
  s.say (inOrder.flatMap fun (n, action) =>
    "trap -- ".toList ++ quoted action ++ ' ' :: nameOf n ++ ['\n'])

/-- Say what is to be done on signals, or under the number zero at the end. -/
def trap (args : List Chars) : Step Nat :=
  let put := fun (action : Option Chars) (names : List Chars) => do
    match names.find? fun name => (signal? name).isNone with
    | none =>
      let ns := names.filterMap signal?
      modify fun s =>
        let rest := s.traps.filter fun t => !ns.contains t.1
        { s with traps := rest ++ action.toList.flatMap fun a => ns.map fun n => (n, a) }
      return 0
    | some name =>
      modify (·.complain ("trap: ".toList ++ name ++ ": bad trap\n".toList))
      return 1
  match args.dropWhile (· = ['-', '-']) with
  | [] => Step.gauge listTraps
  | ['-'] :: names => put none names
  | action :: names =>
    if names = [] ∨ (natural? action).isSome then put none (action :: names) else put (some action) names

end WarmCheck.Shell.Builtin

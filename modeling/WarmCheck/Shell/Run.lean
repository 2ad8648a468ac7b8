import WarmCheck.Shell.Invocation

/-!
# Running

What commands and programs do.

* `run`: a command; `runText`: a script.
* `process`: a program of the machine from start to end.
* `Process.run`: the same with what it has printed.
-/

namespace WarmCheck.Shell

mutual

/-- Carry out a command. A fault of one that is tested ends no shell. -/
def run : Nat → Bool → Command → Step Unit
  | 0, _, _ => throw (.shell (.code 2))
  | n + 1, isTested, c => do
    if (← get).options.contains 'n' then return
    match c with
    | .nothing => Step.setStatus 0
    | .simple line words rs => do
      checked isTested (simple n isTested line words rs)
      for action in (← modifyGet fun s => (s.due, { s with due := [] })) do
        let status := (← get).status
        runText n false action
        Step.setStatus status
    | .pipe cs => checked isTested (pipeline n cs)
    | .negate c => do
      run n true c
      modify fun s => { s with status := if s.status = 0 then 1 else 0 }
    | .both a b => do
      run n true a
      if (← get).status = 0 then run n isTested b
    | .either a b => do
      run n true a
      if (← get).status ≠ 0 then run n isTested b
    | .seq a b => do
      run n isTested a
      run n isTested b
    | .background c => do
      let status ← keepingFds do
        point 0 .void
        split n false c
      modify fun s =>
        let pid := s.pid + 1 + s.jobs.length
        { s with last := some pid, jobs := (pid, status) :: s.jobs, status := 0 }
    | .subshell c => checked isTested (split n isTested c)
    | .redirected line c rs => do
      modify fun s => { s with line }
      let refusal ← withRedirects (printed n) false rs do
        run n isTested c
        return 0
      if refusal ≠ 0 then checked isTested (return refusal)
    | .branch condition yes no => do
      run n true condition
      if (← get).status = 0 then run n isTested yes else run n isTested no
    | .loop isUntil condition body => do
      let status ← turns (fun status => do
        run n true condition
        if ((← get).status == 0) == isUntil then return (false, status)
        let isMore ← turnOf (run n isTested body)
        return (isMore, (← get).status)) n 0
      Step.setStatus status
    | .each line name words body => do
      modify fun s => { s with line }
      let values ← match words with
        | some ws => do pure (← ws.mapM (Expand.fields (printed n))).flatten
        | none => do pure (← get).args
      Step.setStatus 0
      turnsFor (fun v => do
        Builtin.assign name v
        turnOf (run n isTested body)) values
    | .select line word arms => do
      modify fun s => { s with line }
      let value ← Expand.value (printed n) word
      let chosen ← arms.findSomeM? fun (patterns, body) => do
        let ps ← patterns.mapM (Expand.pattern (printed n))
        return if ps.any (·.accepts value) then some body else none
      run n isTested (chosen.getD .nothing)
    | .function name body => modify fun s =>
      { s with functions := (name, body) :: s.functions.filter (·.1 ≠ name), status := 0 }

/-- Carry out a simple command. -/
def simple : Nat → Bool → Nat → List Chars → List Redirect → Step Nat
  | 0, _, _, _, _ => throw (.shell (.code 2))
  | n + 1, isTested, line, words, rs => do
    modify fun s => { s with line, printed := 0 }
    let assignments := words.takeWhile isAssignment
    let fields := (← (words.drop assignments.length).mapM (Expand.fields (printed n))).flatten
    if (← get).options.contains 'x' then
      modify (·.complain (joined [' '] (['+'] :: assignments ++ fields) ++ ['\n']))
    let assign := fun isExported => for a in assignments do
      let (name, value) := Builtin.definition a
      Builtin.assign name (← Expand.value (printed n) (value.getD []))
      if isExported then
        modify fun s => s.putVar name ((s.var? name).map fun v => { v with isExported := true })
    match fields with
    | [] => withRedirects (printed n) false rs do
      assign false
      return (← get).printed
    | name :: args =>
      let isSpecial := Builtin.special.contains (String.ofList name)
      if name = "exec".toList then
        if let some problem ← redirectAll (printed n) rs then refuse problem true (return ())
        match args with
        | [] => return 0
        | name :: args => do
          assign true
          throw (.shell (← external n true name args))
      else withRedirects (printed n) isSpecial rs do
        if isSpecial then
          assign false
          call n isTested false name args
        else
          let s ← get
          let names := assignments.map fun a => (Builtin.definition a).1
          let old := names.map fun name => (name, s.var? name)
          let r ← Step.attempt do
            assign true
            call n isTested false name args
          modify fun s => old.foldl (fun s (name, v) => s.putVar name v) s
          match r with
          | .ok status => return status
          | .error jump => throw jump

/-- Carry out a command by its name: one of the shell itself, a function, or a program. -/
def call : Nat → Bool → Bool → Chars → List Chars → Step Nat
  | 0, _, _, _, _ => throw (.shell (.code 2))
  | n + 1, isTested, isPlain, name, args => do
    let isSpecial := Builtin.special.contains (String.ofList name)
    match (← get).functions.lookup name with
    | some body => if !isPlain ∧ !isSpecial then return ← callFunction n isTested body args
    | none => pure ()
    match String.ofList name, args with
    | "eval", _ => do
      labelled "eval: ".toList (runText n isTested (joined [' '] args))
      return (← get).status
    | ".", file :: _ => source n file
    | ".", [] => return 0
    | "command", ['-', 'v'] :: names => forEach (locate false) names
    | "command", ['-', 'V'] :: names | "type", names => forEach (locate true) names
    | "hash", names => forEach hash (names.filter (·.head? ≠ some '-'))
    | "command", ['-', 'p'] :: name :: args | "command", name :: args => call n isTested true name args
    | "command", [] => return 0
    | text, _ =>
      match Builtin.run? text args with
      | some x => labelled [] x
      | none => do
        let e ← external n false name args
        if let .signal k := e then modify (·.complain (Builtin.farewell k))
        return e.status

/-- Carry out a function with arguments. -/
def callFunction : Nat → Bool → Command → List Chars → Step Nat
  | 0, _, _, _ => throw (.shell (.code 2))
  | n + 1, isTested, body, args => do
    let s ← get
    set { s with args, loops := 0, saved := [] :: s.saved }
    let r ← Step.attempt (run n isTested body)
    modify fun t =>
      let t := (t.saved.head?.getD []).foldl (fun t (name, v) => t.putVar name v) t
      { t with args := s.args, loops := s.loops, saved := s.saved }
    match r with
    | .ok _ | .error .function => return (← get).status
    | .error jump => throw jump

/-- Carry out the commands of a file. -/
def source : Nat → Chars → Step Nat
  | 0, _ => throw (.shell (.code 2))
  | n + 1, file => do
    let s ← get
    match (candidates s file).findSome? fun p => (s.disk.read p).toOption with
    | none =>
      Step.abort (".: ".toList ++ if file.contains '/' then openProblem true file (.os .noEntry)
        else file ++ ": not found".toList)
    | some text =>
      match ← Step.attempt (labelled (file ++ ": ".toList) (runText n false (ofBytes text))) with
      | .ok _ | .error .function => return (← get).status
      | .error jump => throw jump

/-- Run a program from start to end. If it takes the place of the shell, nothing is done at the end of
the shell. -/
def external : Nat → Bool → Chars → List Chars → Step Ending
  | 0, _, _, _ => throw (.shell (.code 2))
  | n + 1, isInPlace, name, args => do
    let s ← get
    match firstImage s.disk name args .noEntry (candidates s name) with
    | .ok image =>
      let (t, e) := process n image s.child
      set { s.after t with traps := if isInPlace then [] else s.traps }
      return e
    | .error e =>
      let (problem, status) := launchProblem s name e
      return .code (← Step.blame status ((if isInPlace then "exec: ".toList else []) ++ problem))

/-- Commands each of which reads what the one before it prints. -/
def pipeline : Nat → List Command → Step Nat
  | 0, _ => throw (.shell (.code 2))
  | _, [] => return 0
  | n + 1, [c] => split n false c
  | n + 1, c :: cs => keepingFds do
    let output := (← get).channels.length
    keepingFds do
      point 1 (.sink [])
      let _ ← split n false c
    point 0 (.source (((← get).channels[output]?).elim [] Channel.written))
    pipeline n cs

/-- Carry out a command in a shell of its own. -/
def split : Nat → Bool → Command → Step Nat
  | 0, _, _ => throw (.shell (.code 2))
  | n + 1, isTested, c => do
    let s ← get
    let (r, t) := (run n isTested c).run { s with traps := s.traps.filter (·.2 = []), due := [], jobs := [] }
    match r with
    | .error (.process signal) =>
      set (s.after t)
      throw (.process signal)
    | r =>
      let (t, e) := ended (runText n false) r t
      set (s.after t)
      return e.status

/-- What a script prints that is carried out in a shell of its own. Its lines are those around it, or
count anew. -/
def printed : Nat → Bool → Chars → Step Chars
  | 0, _, _ => throw (.shell (.code 2))
  | n + 1, isInPlace, text => do
    let line := (← get).line
    let script := Script.parse (if isInPlace then line else 1) text
    if let some problem := script.problem then reject problem
    let output := (← get).channels.length
    let status ← keepingFds do
      point 1 (.sink [])
      split n false (script.commands.foldr followed .nothing)
    modify fun s => { s with printed := status }
    return ofBytes (((← get).channels[output]?).elim [] Channel.written)

/-- Carry out the commands of a script. -/
def runText : Nat → Bool → Chars → Step Unit
  | 0, _, _ => throw (.shell (.code 2))
  | n + 1, isTested, text => do
    let script := Script.parse 1 text
    if script.commands.isEmpty then Step.setStatus 0
    for c in script.commands do run n isTested c
    if let some problem := script.problem then reject problem

/-- A program of the machine from start to end. One that is not known does nothing. -/
def process : Nat → Image → State → State × Ending
  | 0, _, s => (s, .code 2)
  | n + 1, image, s =>
    let s := { s with name := ofBytes image.calledAs }
    let args := image.args.map ofBytes
    match String.ofList (ofBytes image.program) with
    | "sh" | "dash" | "bash" =>
      match (Request.read {} args).bind (·.script s) with
      | .error problem => (s.complain (s.name ++ ": 0: ".toList ++ problem ++ ['\n']), .code 2)
      | .ok (text, s) =>
        let (r, s) := (runText n false text).run s
        ended (runText n false) r s
    | "env" =>
      match settings args with
      | .error option =>
        let (s, status) := Utility.misuse ("invalid option -- '".toList ++ option.take 1 ++ ['\'']) 125 s
        (s, .code status)
      | .ok (isEmpty, vars, command) =>
        let s := { s with vars := if isEmpty then [] else s.vars }
        let s := vars.foldl (fun s (name, value) =>
          s.putVar name (value.map fun v => { value := some v, isExported := true })) s
        match command with
        | [] =>
          let (s, status) := s.say (s.environment.entries.flatMap fun (name, value) =>
            name.toList ++ '=' :: ofBytes value ++ ['\n'])
          (s, .code status)
        | name :: args =>
          let searched := if (s.var? "PATH".toList).isSome then s
            else s.set "PATH".toList "/bin:/usr/bin".toList
          match firstImage s.disk name args .noEntry (candidates searched name) with
          | .ok image => process n image s
          | .error e =>
            let status := (launchProblem s name e).2
            let (s, _) := Utility.complain (['\''] ++ name ++ "': ".toList ++ e.text.toList) status s
            let (s, _) := if e = .noEntry ∧ name.contains ' ' then
                Utility.complain "use -[v]S to pass options in shebang lines".toList status s
              else (s, status)
            (s, .code status)
    | name =>
      match Utility.run? name args with
      | some f =>
        let (s, status) := f s
        (s, .code status)
      | none => (s, .code 0)

end

/-! ## Whole processes -/

namespace Process

/-- What a process has done when it ends. -/
structure Outcome where
  disk : Disk
  out : Bytes
  err : Bytes
  ending : Ending

/-- How deep commands may be nested, and how many turns a loop may take. -/
def depth : Nat := 20000

/-- A program from start to end, with nothing to read. -/
def run (d : Disk) (env : Environment) (image : Image) : Outcome :=
  let s : State := {
    disk := d, channels := [.void, .sink [], .sink []], fds := [(0, 0), (1, 1), (2, 2)]
    vars := State.varsOf env }
  let (s, ending) := process depth image s
  let written := fun (n : Nat) => (s.channels[n]?).elim [] Channel.written
  { disk := s.disk, out := written 1, err := written 2, ending }

end Process

end WarmCheck.Shell

import WarmCheck.Shell.Control
import WarmCheck.Shell.Expand

/-!
# Redirection

What descriptors stand for while a command runs.

* `redirect`, `withRedirects`.
-/

namespace WarmCheck.Shell

/-- What is said about a file that cannot be opened. -/
def openProblem (isRead : Bool) (name : Chars) (e : Fault) : Chars :=
  let reason := match e with
    | .os e =>
      if e = Errno.noEntry ∨ e = Errno.notDirectory then
        if isRead then "No such file" else "Directory nonexistent"
      else e.text
    | e => e.message
  (if isRead then "cannot open " else "cannot create ").toList ++ name ++ ": ".toList ++ reason.toList

/-- A file opened, or why it cannot be. -/
def openFile (access : Access) (p : Path) (s : State) : Except Fault (State × Channel) :=
  match access with
  | .read => do
    match ← s.disk.find true p with
    | .node place n =>
      if Disk.may 4 n.mode then
        return (s, match n with
          | .file .. => .file place 0 false
          | _ => .void)
      else .error (.os .accessDenied)
    | .vacant .. => .error (.os .noEntry)
  | .write | .replace | .extend | .readWrite => do
    if access = .write ∧ s.options.contains 'C' ∧ s.disk.isFile p then throw (.os .alreadyExists)
    let isNew := access = .write ∨ access = .replace
    let disk ← s.disk.updateFile p fun old => if isNew then [] else old
    match ← disk.find true p with
    | .node place _ => return ({ s with disk }, .file place 0 (access = .extend))
    | .vacant .. => .error (.os .noEntry)

/-- The descriptor for which the name of a file stands. -/
def namedFd? (name : Chars) : Option Nat :=
  match String.ofList name with
  | "/dev/stdin" => some 0
  | "/dev/stdout" => some 1
  | "/dev/stderr" => some 2
  | _ => (List.isPrefixOf? "/dev/fd/".toList name).bind natural?

/-- Let a descriptor stand for the same as another. -/
def duplicate (fd : Nat) (other : Chars) : Step (Option Chars) := do
  if other = ['-'] then
    modify (·.point fd none)
    return none
  match natural? other with
  | some n =>
    match (← get).fds.lookup n with
    | some channel =>
      modify (·.point fd (some channel))
      return none
    | none => return some (other ++ ": Bad file descriptor".toList)
  | none => Step.abort "Syntax error: Bad fd number".toList

/-- Let a descriptor stand for a new channel. -/
def point (fd : Nat) (c : Channel) : Step Unit := modify fun s =>
  let (s, n) := s.openChannel c
  s.point fd (some n)

/-- Carry out a redirection; what is left to be said if that is not possible. -/
def redirect (print : Bool → Chars → Step Chars) : Redirect → Step (Option Chars)
  | .same fd other => do duplicate fd (← Expand.value print other)
  | .text fd isLiteral body => do
    match ← Step.attempt (if isLiteral then pure body else Expand.document print body) with
    | .ok text =>
      point fd (.source (toBytes text))
      return none
    | .error (.shell _) => return some []
    | .error jump => throw jump
  | .file fd access raw => do
    let name ← Expand.value print raw
    if name = "/dev/null".toList then
      point fd .void
      return none
    if let some n := namedFd? name then duplicate fd (decimal n)
    else
      match openFile access (pathOf name) (← get) with
      | .ok (s, c) =>
        set s
        point fd c
        return none
      | .error e => return some (openProblem (access = .read) name e)

/-- Carry out redirections in order, up to one that is not possible. -/
def redirectAll (print : Bool → Chars → Step Chars) : List Redirect → Step (Option Chars)
  | [] => return none
  | r :: rs => do
    match ← redirect print r with
    | some problem => return some problem
    | none => redirectAll print rs

/-- A redirection is not possible; what is left to be said about that is said. -/
def refuse {α : Type} (problem : Chars) (isFatal : Bool) (x : Step α) : Step α := do
  if problem ≠ [] then modify (·.blame problem)
  if isFatal then throw (.shell (.code 2)) else x

/-- A step with redirections, which are taken back after it. -/
def withRedirects (print : Bool → Chars → Step Chars) (isSpecial : Bool) (rs : List Redirect)
    (x : Step Nat) : Step Nat :=
  keepingFds do
    match ← redirectAll print rs with
    | none => x
    | some problem => refuse problem isSpecial (return 2)

end WarmCheck.Shell

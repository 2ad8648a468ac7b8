import WarmCheck.Shell.Octets

/-!
# Commands

The commands of a shell script. Words are kept as they are written.

* `Redirect`, `Command`.
-/

namespace WarmCheck.Shell

/-- For what a file is opened. -/
inductive Access where
  | read
  /-- To be written anew, where an option of the shell may forbid that. -/
  | write
  | replace
  | extend
  | readWrite
  deriving DecidableEq, Repr

/-- What a descriptor is made to stand for while a command runs. -/
inductive Redirect where
  | file (fd : Nat) (access : Access) (name : Chars)
  /-- What another descriptor stands for, or nothing. -/
  | same (fd : Nat) (other : Chars)
  /-- A text to be read, which is taken as it is or not. -/
  | text (fd : Nat) (isLiteral : Bool) (body : Chars)
  deriving DecidableEq, Repr

/-- A command. -/
inductive Command where
  | nothing
  /-- Words, among them assignments at the beginning, on a line of the script. -/
  | simple (line : Nat) (words : List Chars) (redirects : List Redirect)
  /-- Commands each of which reads what the one before it prints. -/
  | pipe (commands : List Command)
  | negate (command : Command)
  | both (first second : Command)
  | either (first second : Command)
  | seq (first second : Command)
  /-- A command that is not waited for. -/
  | background (command : Command)
  /-- A command in a shell of its own. -/
  | subshell (command : Command)
  | redirected (line : Nat) (command : Command) (redirects : List Redirect)
  | branch (condition yes no : Command)
  | loop (isUntil : Bool) (condition body : Command)
  /-- A command for each of some words, or of the arguments. -/
  | each (line : Nat) (name : Chars) (words : Option (List Chars)) (body : Command)
  /-- The first command of those with patterns one of which stands for a word. -/
  | select (line : Nat) (word : Chars) (arms : List (List Chars × Command))
  | function (name : Chars) (body : Command)
  deriving Repr, Inhabited

/-- Two commands, one after the other. -/
def followed (a b : Command) : Command :=
  match b with
  | .nothing => a
  | b => .seq a b

end WarmCheck.Shell

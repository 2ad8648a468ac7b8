import WarmCheck.Environment
import WarmCheck.Snapshot
import WarmCheck.Text.Digit

/-!
# The summary of a daemon

* `Palette`: whether text is coloured.
* `ageText`: how long ago something was.
* `summary`: what is said of a snapshot.
-/

namespace WarmCheck.CommandLine

/-- The colours that are used. -/
inductive Colour where
  | red
  | green
  | yellow
  deriving DecidableEq, Repr

/-- The number of a colour in an escape sequence. -/
def Colour.code : Colour → String
  | red => "31"
  | green => "32"
  | yellow => "33"

/-- Whether text is coloured. -/
structure Palette where
  isOn : Bool
  deriving DecidableEq, Repr

namespace Palette

/-- The value of a variable used as a switch for colours: only a zero turns it off. -/
def switch? (env : Environment) (name : String) : Option Bool :=
  (env.text? name).map (· != ['0'])

/-- Colours can be forced; else they can be refused; else a terminal gets them. -/
def of (env : Environment) (isTerminal : Bool) : Palette :=
  if switch? env "CLICOLOR_FORCE" = some true then ⟨true⟩
  else if (switch? env "NO_COLOR").isSome then ⟨false⟩
  else ⟨(switch? env "CLICOLOR").getD true && isTerminal⟩

/-- Text in a colour. -/
def paint (p : Palette) (c : Colour) (s : String) : String :=
  if p.isOn then "\x1b[" ++ c.code ++ "m" ++ s ++ "\x1b[0m" else s

end Palette

/-- A number in decimal. -/
def number (n : Nat) : String := String.ofList (Text.decimal n)

/-- How long ago something was, from the time that has passed in milliseconds, in the greatest unit
of which at least one has passed. -/
def ageText (elapsed : Nat) : String :=
  let secs := elapsed / 1000
  if secs = 0 then "just now"
  else if secs < 60 then number secs ++ "s ago"
  else if secs < 3600 then number (secs / 60) ++ "m ago"
  else number (secs / 3600) ++ "h ago"

/-- A yes in its colour, or a green no. -/
def yesNo (p : Palette) (c : Colour) (b : Bool) : String :=
  if b then p.paint c "yes" else p.paint .green "no"

/-- What is said of a snapshot at a time in milliseconds. A snapshot from the future is of just
now. -/
def summary (p : Palette) (now : Nat) (s : Snapshot) : String :=
  let state := if s.isComplete then p.paint .green "idle" else p.paint .yellow "checking"
  "daemon:   " ++ p.paint .green "running" ++ " (" ++ state ++ ")\n" ++
    "errors:   " ++ yesNo p .red s.hasErrors ++ "\n" ++
    "warnings: " ++ yesNo p .yellow s.hasWarnings ++ "\n" ++
    "updated:  " ++ ageText (now - s.lastUpdate.toNat) ++ "\n"

end WarmCheck.CommandLine

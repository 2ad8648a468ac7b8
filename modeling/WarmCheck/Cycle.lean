import WarmCheck.Line

/-!
# Check cycles

A cycle is the run of lines up to and including a summary. Its report holds the lines that are kept
and the counts of the summary.

* `Cycle.push`: one line more, with the event it causes.
* `Cycle.run`: the events of a list of lines.
-/

namespace WarmCheck

/-- The outcome of a finished cycle. -/
structure Report where
  output : String
  errors : Nat
  warnings : Nat
  deriving DecidableEq, Repr

/-- What a line can tell about the cycle. -/
inductive CycleEvent where
  | started
  | finished (report : Report)
  deriving DecidableEq, Repr

/-- A cycle in progress: the lines kept so far, the newest first, and whether it has any content
besides start lines. -/
structure Cycle where
  newest : List Line := []
  hasContent : Bool := false
  deriving DecidableEq, Repr

namespace Cycle

/-- The lines kept so far, in order. -/
def lines (c : Cycle) : List Line := c.newest.reverse

/-- Lines joined by newlines, without trailing blanks. -/
def outputOf (ls : List Line) : String :=
  String.ofList (Text.trimEnd (['\n'].intercalate ls))

/-- One line more. Separators and footers are dropped, and so are blank lines before the first
content; a summary ends the cycle and leaves a new one. -/
def push (c : Cycle) (l : Line) : Cycle × Option CycleEvent :=
  match l.kind with
  | .separator | .footer => (c, none)
  | .text =>
    if !c.hasContent && Text.allBlank l then (c, none)
    else (⟨l :: c.newest, true⟩, none)
  | .started => (⟨l :: c.newest, c.hasContent⟩, some .started)
  | .summary errors warnings =>
    (⟨[], false⟩, some (.finished ⟨outputOf (l :: c.newest).reverse, errors, warnings⟩))

/-- The events of a list of lines, with the cycle they leave. -/
def run (c : Cycle) : List Line → Cycle × List CycleEvent
  | [] => (c, [])
  | l :: ls =>
    let (c, e) := c.push l
    let (c, es) := run c ls
    (c, e.toList ++ es)

theorem run_append (c : Cycle) (ls ms : List Line) :
    c.run (ls ++ ms) = (((c.run ls).1.run ms).1, (c.run ls).2 ++ ((c.run ls).1.run ms).2) := by
  induction ls generalizing c with
  | nil => rfl
  | cons l ls ih => simp [run, ih]

end Cycle

end WarmCheck

import WarmCheck.Text.Utf8
import WarmCheck.Text.Blank
import WarmCheck.Text.Digit

/-!
# The process marker

The marker file holds the number of the daemon's process in decimal. Only a number that can be that
of a process is ever used to reach one.

* `Marker.pid?`: the number in a marker.
* `Marker.probe?`, `Marker.stop?`: the calls that are made because of a marker.
-/

namespace WarmCheck.Marker

/-- The least and the greatest number that a marker can hold. -/
def minPid : Int := -0x80000000

@[inherit_doc minPid]
def maxPid : Int := 0x7FFFFFFF

/-- The value of a number with an optional sign, within the limits. -/
def number? (cs : List Char) : Option Int :=
  let (sign, ds) : Int × List Char :=
    match cs with
    | '+' :: ds => (1, ds)
    | '-' :: ds => (-1, ds)
    | ds => (1, ds)
  if ds ≠ [] ∧ ds.all Char.isDigit then
    let n := sign * (Text.decimalValue ds : Int)
    if minPid ≤ n ∧ n ≤ maxPid then some n else none
  else none

/-- The number in a marker: text that is a number but for blanks around it. -/
def pid? (content : Bytes) : Option Int := (Utf8.decode? content).bind fun cs => number? (Text.trim cs)

/-- The content of the marker of a process. -/
def contentOf (pid : Nat) : Bytes := Utf8.encode (Text.decimal pid)

/-! ## Reaching the process -/

/-- A signal sent to one process. -/
structure Signal where
  pid : Int
  number : Nat
  deriving DecidableEq, Repr

/-- The signal that only asks whether a process exists. -/
def nullSignal : Nat := 0

/-- The signal that asks a process to end. -/
def termSignal : Nat := 15

/-- The question whether the process of a marker exists. Zero and negative numbers stand for groups
of processes and are never asked. -/
def probe? (content : Option Bytes) : Option Signal :=
  ((content.bind pid?).filter (0 < ·)).map (⟨·, nullSignal⟩)

/-- Whether the process of a marker exists, where `lives` tells which do. -/
def isAlive (lives : Int → Bool) (content : Option Bytes) : Bool :=
  match probe? content with
  | some s => lives s.pid
  | none => false

/-- The request to end that the process of a marker is sent, if it exists. -/
def stop? (lives : Int → Bool) (content : Option Bytes) : Option Signal :=
  ((probe? content).filter (lives ·.pid)).map fun s => { s with number := termSignal }

end WarmCheck.Marker

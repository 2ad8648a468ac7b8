import WarmCheck.Snapshot
import WarmCheck.Json.Value
import WarmCheck.Json.Text
import WarmCheck.Text.Digit

/-!
# Snapshots as JSON

A snapshot travels as an object with five members. It is written with its members in a fixed order,
and read with them in any order, among others, or as an array of the five values.

* `Snapshot.compact`: one line, as it is sent; `Snapshot.pretty`: one member a line, as it is shown.
* `Snapshot.decode?`: the snapshot of a document.
-/

namespace WarmCheck.Snapshot

open WarmCheck.Json

/-- A member of the object of a snapshot. -/
inductive Key where
  | output
  | hasErrors
  | hasWarnings
  | isComplete
  | lastUpdate
  deriving DecidableEq, Repr

namespace Key

/-- The members in the order in which they are written. -/
def all : List Key := [output, hasErrors, hasWarnings, isComplete, lastUpdate]

/-- The name of a member. -/
def name : Key → List Char
  | output => "output".toList
  | hasErrors => "hasErrors".toList
  | hasWarnings => "hasWarnings".toList
  | isComplete => "isComplete".toList
  | lastUpdate => "lastUpdate".toList

/-- The member with this name. -/
def ofName? (cs : List Char) : Option Key := all.find? (·.name == cs)

end Key

/-! ## Writing -/

/-- A flag as JSON. -/
def flag (b : Bool) : List Char := if b then "true".toList else "false".toList

/-- The value of a member as JSON. -/
def valueText (s : Snapshot) : Key → List Char
  | .output => quote s.output.toList
  | .hasErrors => flag s.hasErrors
  | .hasWarnings => flag s.hasWarnings
  | .isComplete => flag s.isComplete
  | .lastUpdate => Text.decimal s.lastUpdate.toNat

/-- A member as JSON, with `gap` after the colon. -/
def memberText (s : Snapshot) (gap : List Char) (k : Key) : List Char :=
  quote k.name ++ ':' :: gap ++ s.valueText k

/-- The snapshot on one line without blanks. -/
def compact (s : Snapshot) : List Char :=
  '{' :: [','].intercalate (Key.all.map (s.memberText [])) ++ ['}']

/-- The snapshot with a line for each member, indented by two blanks. -/
def pretty (s : Snapshot) : List Char :=
  "\x7b\n  ".toList ++ ",\n  ".toList.intercalate (Key.all.map (s.memberText [' '])) ++ "\n\x7d".toList

/-- The octets that are sent for a snapshot. -/
def encode (s : Snapshot) : Bytes := Utf8.encode s.compact

/-! ## Reading -/

/-- The text of a string value. -/
def stringOf? : Value → Option String
  | .string body => (textOf? body).map String.ofList
  | _ => none

/-- The truth value of a word. -/
def boolOf? : Value → Option Bool
  | .bool b => some b
  | _ => none

/-- The value of a number that is written in decimal digits only and fits in 64 bits. -/
def wordOf? : Value → Option UInt64
  | .number text =>
    if text.all isDigit then
      let n := text.foldl (fun n b => 10 * n + (b.toNat - 48)) 0
      if n < UInt64.size then some (UInt64.ofNat n) else none
    else none
  | _ => none

/-- The members that have been read so far. -/
structure Fields where
  output : Option String := none
  hasErrors : Option Bool := none
  hasWarnings : Option Bool := none
  isComplete : Option Bool := none
  lastUpdate : Option UInt64 := none

namespace Fields

/-- A further value for a member that must not have one yet. -/
def fill? {α : Type} (old : Option α) (new : Option α) : Option (Option α) :=
  match old, new with
  | none, some a => some (some a)
  | _, _ => none

/-- A member more; one that occurs twice, or has a value of another kind, makes the whole fail. -/
def put? (f : Fields) (k : Key) (v : Value) : Option Fields :=
  match k with
  | .output => (fill? f.output (stringOf? v)).map fun a => { f with output := a }
  | .hasErrors => (fill? f.hasErrors (boolOf? v)).map fun a => { f with hasErrors := a }
  | .hasWarnings => (fill? f.hasWarnings (boolOf? v)).map fun a => { f with hasWarnings := a }
  | .isComplete => (fill? f.isComplete (boolOf? v)).map fun a => { f with isComplete := a }
  | .lastUpdate => (fill? f.lastUpdate (wordOf? v)).map fun a => { f with lastUpdate := a }

/-- A member of the document. Other names are passed over, but they must be text. -/
def member? (f : Fields) (key : Bytes) (v : Value) : Option Fields :=
  match textOf? key with
  | none => none
  | some name =>
    match Key.ofName? name with
    | some k => f.put? k v
    | none => some f

/-- The members of an object in order. -/
def members? (f : Fields) : List (Bytes × Value) → Option Fields
  | [] => some f
  | (key, v) :: ms => (f.member? key v).bind (members? · ms)

/-- The snapshot, if every member has been read. -/
def toSnapshot? (f : Fields) : Option Snapshot := do
  return ⟨← f.output, ← f.hasErrors, ← f.hasWarnings, ← f.isComplete, ← f.lastUpdate⟩

end Fields

/-- The snapshot that a value denotes: an object with the five members, or an array of their values
in order. -/
def ofValue? : Value → Option Snapshot
  | .object ms => (Fields.members? {} ms).bind Fields.toSnapshot?
  | .array [a, b, c, d, e] => do
    return ⟨← stringOf? a, ← boolOf? b, ← boolOf? c, ← boolOf? d, ← wordOf? e⟩
  | _ => none

/-- The snapshot that a document denotes. -/
def decode? (bs : Bytes) : Option Snapshot := (Value.parse? bs).bind ofValue?

end WarmCheck.Snapshot

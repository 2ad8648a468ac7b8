import WarmCheck.Text.Digit
import WarmCheck.Text.Search
import WarmCheck.Path

/-!
# Octets as characters

A shell does not care about encodings. Here every octet of a script, a value or a file name is one
character.

* `ofBytes`, `toBytes`: there and back.
* `natural?`, `integer?`, `decimal`: numbers.
-/

namespace WarmCheck.Shell

/-- A text with one character for each octet. -/
abbrev Chars := List Char

/-- Octets as characters. -/
def ofBytes (bs : Bytes) : Chars := bs.map fun b => Char.ofNat b.toNat

/-- Characters as octets. -/
def toBytes (cs : Chars) : Bytes := cs.map fun c => UInt8.ofNat c.toNat

/-- The path of these octets. -/
def pathOf (cs : Chars) : Path := ⟨toBytes cs⟩

/-! ## Numbers -/

/-- The number that digits spell. -/
def natural? (cs : Chars) : Option Nat :=
  if cs ≠ [] ∧ cs.all Char.isDigit then some (Text.decimalValue cs) else none

/-- The number that digits spell after an optional sign. -/
def integer? : Chars → Option Int
  | '-' :: cs => (natural? cs).map fun n => -(n : Int)
  | '+' :: cs => (natural? cs).map Int.ofNat
  | cs => (natural? cs).map Int.ofNat

/-- A number in base ten. -/
def decimal (n : Int) : Chars :=
  if n < 0 then '-' :: Text.decimal n.natAbs else Text.decimal n.natAbs

/-! ## Lines -/

/-- Without the ends of line at the end. -/
def dropLineEnds (cs : Chars) : Chars := (cs.reverse.dropWhile (· = '\n')).reverse

/-- A text with a separator between its pieces. -/
def joined (sep : Chars) (pieces : List Chars) : Chars := sep.intercalate pieces

end WarmCheck.Shell

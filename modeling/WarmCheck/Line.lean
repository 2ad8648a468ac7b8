import WarmCheck.Text.Utf8
import WarmCheck.Text.Blank
import WarmCheck.Text.Digit
import WarmCheck.Text.Search

/-!
# Lines of checker output

A line is what stands between two newline octets, cleaned of its carriage return and of colours.
What a line means for the check cycle is its `kind`, and the phrases the checker prints are named
here and nowhere else.

* `Line.ofBytes`: cleaning.
* `Line.kind`: classification.
-/

namespace WarmCheck

/-- A cleaned line of output. -/
abbrev Line := List Char

namespace Line

/-! ## Cleaning -/

/-- The characters between the opening bracket of a terminal sequence and its final letter. -/
def isParameter (c : Char) : Bool := c.isDigit || c == ';' || c == '?'

/-- What follows a terminal sequence `ESC [ parameters letter` at the head of a text. -/
def dropEscape? : List Char → Option (List Char)
  | '\x1b' :: '[' :: cs =>
    match cs.dropWhile isParameter with
    | c :: rest => if c.isAlpha then some rest else none
    | [] => none
  | _ => none

theorem length_dropWhile_le {α : Type} (p : α → Bool) (l : List α) :
    (l.dropWhile p).length ≤ l.length :=
  (List.dropWhile_sublist p).length_le

theorem length_lt_of_dropEscape? {cs rest : List Char} (h : dropEscape? cs = some rest) :
    rest.length < cs.length := by
  unfold dropEscape? at h
  split at h
  · next cs =>
    split at h
    · next c r hd =>
      split at h
      · cases h
        have := length_dropWhile_le isParameter cs
        rw [hd, List.length_cons] at this
        simp only [List.length_cons]
        omega
      · cases h
    · cases h
  · cases h

/-- Without terminal sequences, each removed where it begins, from left to right. -/
def dropEscapes (cs : List Char) : List Char :=
  match h : dropEscape? cs with
  | some rest =>
    have := length_lt_of_dropEscape? h
    dropEscapes rest
  | none =>
    match cs with
    | [] => []
    | c :: cs => c :: dropEscapes cs
termination_by cs.length

/-- The octets before a final carriage return. -/
def dropCarriageReturn (bs : Bytes) : Bytes :=
  match bs.reverse with
  | 13 :: r => r.reverse
  | _ => bs

/-- The line with these octets: without its carriage return, decoded, without terminal sequences. -/
def ofBytes (bs : Bytes) : Line := dropEscapes (Utf8.decodeLossy (dropCarriageReturn bs))

/-! ## Counts -/

/-- The largest count that a summary can report. -/
def maxCount : Nat := 0xFFFFFFFF

/-- The count written by a run of digits; one that is too large, or not in ASCII digits, is the
largest count, so that it is never taken for zero. -/
def countOf (ds : List Char) : Nat :=
  if ds.all Char.isDigit ∧ Text.decimalValue ds ≤ maxCount then Text.decimalValue ds else maxCount

/-- The digits at the head of a text, and what follows them; `none` if there is no digit. -/
def digits? (cs : List Char) : Option (List Char × List Char) :=
  match cs.takeWhile Text.isDecimalDigit with
  | [] => none
  | ds => some (ds, cs.dropWhile Text.isDecimalDigit)

/-- Without one leading `s`. -/
def dropPlural : List Char → List Char
  | 's' :: cs => cs
  | cs => cs

/-- The two runs of digits of a summary at the head of a text:
`found D errors and D warnings`, each plural optional. -/
def summaryAt? (cs : List Char) : Option (List Char × List Char) := do
  let cs ← List.isPrefixOf? "found ".toList cs
  let (errors, cs) ← digits? cs
  let cs ← List.isPrefixOf? " error".toList cs
  let cs ← List.isPrefixOf? " and ".toList (dropPlural cs)
  let (warnings, cs) ← digits? cs
  let _ ← List.isPrefixOf? " warning".toList cs
  return (errors, warnings)

/-- The two runs of digits of the leftmost summary in a text. -/
def summary? : List Char → Option (List Char × List Char)
  | [] => none
  | c :: cs => summaryAt? (c :: cs) <|> summary? cs

/-! ## Classification -/

/-- What a line means for the check cycle. -/
inductive Kind where
  /-- A cycle begins. -/
  | started
  /-- A cycle ends, with these counts. -/
  | summary (errors warnings : Nat)
  /-- A rule of equals signs. -/
  | separator
  /-- The note that the checker waits for changes. -/
  | footer
  /-- Anything else. -/
  | text
  deriving DecidableEq, Repr

/-- The phrases that announce a new cycle. -/
def startPhrases : List (List Char) :=
  ["Loading svelte-check in workspace".toList, "Getting Svelte diagnostics".toList]

/-- The phrase that closes the output of a cycle. -/
def watchingPhrase : List Char := "Watching for file changes".toList

/-- At least three equals signs and nothing else. -/
def isRule (cs : List Char) : Bool := 3 ≤ cs.length && cs.all (· == '=')

/-- A summary wins over a start phrase, a start phrase over the footer, the footer over a rule. -/
def kind (l : Line) : Kind :=
  match summary? l with
  | some (errors, warnings) => .summary (countOf errors) (countOf warnings)
  | none =>
    if startPhrases.any (Text.occursIn · l) then .started
    else if Text.occursIn watchingPhrase l then .footer
    else if isRule (Text.trim l) then .separator
    else .text

end Line

end WarmCheck

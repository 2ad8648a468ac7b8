import WarmCheck.Text.Utf8

/-!
# JSON tokens

A document is cut into tokens by a machine that takes one octet at a time. The body of a string is
kept as it is written: whether it is UTF-8, and what its escapes mean, is asked only where the
string is used.

* `Token`: punctuation, words, numbers and strings.
* `Token.lex?`: the tokens of a document.
-/

namespace WarmCheck.Json

/-- A token of a JSON document. -/
inductive Token where
  | openObject
  | closeObject
  | openArray
  | closeArray
  | colon
  | comma
  | null
  | bool (value : Bool)
  /-- A number as it is written. -/
  | number (text : Bytes)
  /-- What stands between the quotes of a string. -/
  | string (body : Bytes)
  deriving DecidableEq, Repr

/-! ## Numbers -/

/-- How far a number has been read. -/
inductive NumberPart where
  | minus
  | zero
  | whole
  | point
  | fraction
  | exponent
  | sign
  | power
  deriving DecidableEq, Repr

/-- A decimal digit. -/
def isDigit (b : UInt8) : Bool := 0x30 ≤ b && b ≤ 0x39

namespace NumberPart

/-- A number may end here. -/
def isFinal : NumberPart → Bool
  | zero | whole | fraction | power => true
  | _ => false

/-- The part that octet `b` goes on with, if the number goes on. -/
def next? : NumberPart → UInt8 → Option NumberPart
  | minus, b => if b = 0x30 then some zero else if isDigit b then some whole else none
  | zero, b => afterWhole? b
  | whole, b => if isDigit b then some whole else afterWhole? b
  | point, b => if isDigit b then some fraction else none
  | fraction, b => if isDigit b then some fraction else exponent? b
  | exponent, b =>
    if b = 0x2B ∨ b = 0x2D then some sign else if isDigit b then some power else none
  | sign, b | power, b => if isDigit b then some power else none
where
  /-- The exponent mark. -/
  exponent? (b : UInt8) : Option NumberPart := if b = 0x65 ∨ b = 0x45 then some exponent else none
  /-- A point or an exponent mark. -/
  afterWhole? (b : UInt8) : Option NumberPart := if b = 0x2E then some point else exponent? b

end NumberPart

/-! ## The machine -/

/-- What the octets before a point have left open. Bodies and texts are held last octet first. -/
inductive Mode where
  | between
  | string (body : Bytes)
  | escape (body : Bytes)
  | hex (body : Bytes) (left : Nat)
  | number (part : NumberPart) (text : Bytes)
  | word (rest : Bytes) (token : Token)
  deriving DecidableEq, Repr

/-- Space, tab, line feed and carriage return. -/
def isSpace (b : UInt8) : Bool := b = 0x20 || b = 0x09 || b = 0x0A || b = 0x0D

/-- A hexadecimal digit of either case. -/
def isHex (b : UInt8) : Bool := isDigit b || (0x61 ≤ b && b ≤ 0x66) || (0x41 ≤ b && b ≤ 0x46)

/-- The letters that may follow a backslash, `u` apart. -/
def isEscape (b : UInt8) : Bool :=
  b = 0x22 || b = 0x5C || b = 0x2F || b = 0x62 || b = 0x66 || b = 0x6E || b = 0x72 || b = 0x74

/-- Begin a token. -/
def start? (b : UInt8) : Option (List Token × Mode) :=
  match b with
  | 0x7B => some ([.openObject], .between)
  | 0x7D => some ([.closeObject], .between)
  | 0x5B => some ([.openArray], .between)
  | 0x5D => some ([.closeArray], .between)
  | 0x3A => some ([.colon], .between)
  | 0x2C => some ([.comma], .between)
  | 0x22 => some ([], .string [])
  | 0x6E => some ([], .word (Utf8.ofString "ull") .null)
  | 0x74 => some ([], .word (Utf8.ofString "rue") (.bool true))
  | 0x66 => some ([], .word (Utf8.ofString "alse") (.bool false))
  | 0x2D => some ([], .number .minus [b])
  | 0x30 => some ([], .number .zero [b])
  | _ =>
    if isSpace b then some ([], .between)
    else if isDigit b then some ([], .number .whole [b])
    else none

/-- Take one octet; `none` if no document goes on with it. -/
def Mode.step? : Mode → UInt8 → Option (List Token × Mode)
  | .between, b => start? b
  | .string body, b =>
    if b = 0x22 then some ([.string body.reverse], .between)
    else if b = 0x5C then some ([], .escape (b :: body))
    else if b < 0x20 then none
    else some ([], .string (b :: body))
  | .escape body, b =>
    if b = 0x75 then some ([], .hex (b :: body) 4)
    else if isEscape b then some ([], .string (b :: body))
    else none
  | .hex body left, b =>
    if isHex b then
      if left ≤ 1 then some ([], .string (b :: body)) else some ([], .hex (b :: body) (left - 1))
    else none
  | .number part text, b =>
    match part.next? b with
    | some part => some ([], .number part (b :: text))
    | none =>
      if part.isFinal then (start? b).map fun (ts, m) => (.number text.reverse :: ts, m) else none
  | .word (c :: rest) token, b =>
    if b = c then
      match rest with
      | [] => some ([token], .between)
      | _ => some ([], .word rest token)
    else none
  | .word [] _, _ => none

/-- What the end of the document leaves, if it may end here. -/
def Mode.finish? : Mode → Option (List Token)
  | .between => some []
  | .number part text => if part.isFinal then some [.number text.reverse] else none
  | _ => none

namespace Token

/-- The tokens read from a point on. -/
def lexFrom? (m : Mode) : Bytes → Option (List Token)
  | [] => m.finish?
  | b :: bs =>
    match m.step? b with
    | none => none
    | some (ts, m) => (lexFrom? m bs).map (ts ++ ·)

/-- The tokens of a document. -/
def lex? (bs : Bytes) : Option (List Token) := lexFrom? .between bs

end Token

end WarmCheck.Json

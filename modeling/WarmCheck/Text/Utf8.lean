/-!
# UTF-8

Characters as octets and back. The decoder is a machine that takes one octet at a time, so a text
may be cut anywhere without changing what is read from it.

* `Utf8.encode`: the octets of a text.
* `Utf8.scan`: the characters of an octet list, with `none` for each malformed run.
* `Utf8.decode?`: the text, if no run is malformed; `Utf8.decodeLossy`: the text, with U+FFFD for
  each malformed run.
-/

namespace WarmCheck

/-- A list of octets. -/
abbrev Bytes := List UInt8

namespace Utf8

/-- The octet with value `n` modulo 256. -/
def octet (n : Nat) : UInt8 := UInt8.ofNat n

/-- The octets of one character. -/
def encodeChar (c : Char) : Bytes :=
  let n := c.toNat
  if n < 0x80 then [octet n]
  else if n < 0x800 then [octet (0xC0 + n / 64), octet (0x80 + n % 64)]
  else if n < 0x10000 then
    [octet (0xE0 + n / 4096), octet (0x80 + n / 64 % 64), octet (0x80 + n % 64)]
  else
    [octet (0xF0 + n / 262144), octet (0x80 + n / 4096 % 64), octet (0x80 + n / 64 % 64),
      octet (0x80 + n % 64)]

/-- The octets of a text. -/
def encode (cs : List Char) : Bytes := cs.flatMap encodeChar

/-! ## Decoding -/

/-- What the octets before a point have left open: nothing, or a character that still wants `left`
octets, the next of them between `lo` and `hi`, with `value` gathered so far. -/
inductive Pending where
  | idle
  | wants (value left lo hi : Nat)
  deriving DecidableEq, Repr

/-- Begin a character with octet `b`; only the leads of well-formed characters open one. -/
def lead (b : UInt8) : List (Option Char) × Pending :=
  let n := b.toNat
  if n < 0x80 then ([some (Char.ofNat n)], .idle)
  else if n < 0xC2 then ([none], .idle)
  else if n < 0xE0 then ([], .wants (n - 0xC0) 1 0x80 0xBF)
  else if n = 0xE0 then ([], .wants 0 2 0xA0 0xBF)
  else if n = 0xED then ([], .wants 13 2 0x80 0x9F)
  else if n < 0xF0 then ([], .wants (n - 0xE0) 2 0x80 0xBF)
  else if n = 0xF0 then ([], .wants 0 3 0x90 0xBF)
  else if n < 0xF4 then ([], .wants (n - 0xF0) 3 0x80 0xBF)
  else if n = 0xF4 then ([], .wants 4 3 0x80 0x8F)
  else ([none], .idle)

/-- Take one octet. One that cannot go on with the open character makes what was gathered a
malformed run and begins anew. -/
def step : Pending → UInt8 → List (Option Char) × Pending
  | .idle, b => lead b
  | .wants value left lo hi, b =>
    if lo ≤ b.toNat ∧ b.toNat ≤ hi then
      let value := value * 64 + (b.toNat - 0x80)
      if left ≤ 1 then ([some (Char.ofNat value)], .idle)
      else ([], .wants value (left - 1) 0x80 0xBF)
    else
      let (out, next) := lead b
      (none :: out, next)

/-- The characters read from a point on; an end inside a character is a malformed run. -/
def scanFrom : Pending → Bytes → List (Option Char)
  | .idle, [] => []
  | .wants .., [] => [none]
  | p, b :: bs => (step p b).1 ++ scanFrom (step p b).2 bs

/-- The characters of an octet list, `none` standing for each malformed run. -/
def scan (bs : Bytes) : List (Option Char) := scanFrom .idle bs

/-- The text with these octets, if they are well formed. -/
def decode? (bs : Bytes) : Option (List Char) := (scan bs).mapM id

/-- The text with these octets, each malformed run replaced by U+FFFD. -/
def decodeLossy (bs : Bytes) : List Char := (scan bs).map (·.getD '\uFFFD')

/-- The octets of a string. -/
def ofString (s : String) : Bytes := encode s.toList

end Utf8

end WarmCheck

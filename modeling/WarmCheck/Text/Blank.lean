/-!
# Blank characters

The characters with the Unicode property White_Space, and trimming by them.
-/

namespace WarmCheck.Text

/-- The code points with the property White_Space, as closed ranges. -/
def blankRanges : List (Nat × Nat) :=
  [(0x09, 0x0D), (0x20, 0x20), (0x85, 0x85), (0xA0, 0xA0), (0x1680, 0x1680), (0x2000, 0x200A),
    (0x2028, 0x2029), (0x202F, 0x202F), (0x205F, 0x205F), (0x3000, 0x3000)]

/-- A character with the property White_Space. -/
def isBlank (c : Char) : Bool := blankRanges.any fun r => r.1 ≤ c.toNat && c.toNat ≤ r.2

/-- Without leading blanks. -/
def trimStart (cs : List Char) : List Char := cs.dropWhile isBlank

/-- Without trailing blanks. -/
def trimEnd (cs : List Char) : List Char := (cs.reverse.dropWhile isBlank).reverse

/-- Without blanks at either end. -/
def trim (cs : List Char) : List Char := trimEnd (trimStart cs)

/-- No character but blanks. -/
def allBlank (cs : List Char) : Bool := cs.all isBlank

end WarmCheck.Text

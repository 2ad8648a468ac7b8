import WarmCheck.Json.Text
import WarmCheck.Proofs.Utf8

/-!
# Reading quoted text

Whatever a text holds, the escapes with which it is written in a string denote it again.

* `Json.unescape?_escape_append`: the escape of a character is read as this character.
* **`Json.unescape?_flatMap_escape`**: a text with its escapes is read as this text.
-/

namespace WarmCheck.Json

theorem hexValue?_hexDigit {n : Nat} (h : n < 16) : hexValue? (hexDigit n) = some n := by
  have hall : ∀ n < 16, hexValue? (hexDigit n) = some n := by decide
  exact hall n h

/-- The code of a character in hexadecimal is read as this character. -/
theorem unescape?_code {x y z t c : Char} (h : unit? x y z t = some c.toNat) (rest : List Char) :
    unescape? ('\\' :: 'u' :: x :: y :: z :: t :: rest) = (unescape? rest).map (c :: ·) := by
  have hvalid : c.toNat < 0xD800 ∨ 0xE000 ≤ c.toNat := (Utf8.toNat_lt_or c).imp_right And.left
  have hhigh : isHighSurrogate c.toNat = false := by
    simp only [isHighSurrogate, Bool.and_eq_false_iff, decide_eq_false_iff_not]
    omega
  have hlow : isLowSurrogate c.toNat = false := by
    simp only [isLowSurrogate, Bool.and_eq_false_iff, decide_eq_false_iff_not]
    omega
  rw [unescape?, h]
  simp only [Option.bind_eq_bind, Option.bind_some, hhigh, hlow, Bool.false_eq_true, if_false,
    Char.ofNat_toNat, Option.pure_def]
  cases unescape? rest <;> rfl

theorem unit?_control {c : Char} (h : c.toNat < 0x20) :
    unit? '0' '0' (hexDigit (c.toNat / 16)) (hexDigit (c.toNat % 16)) = some c.toNat := by
  have hzero : hexValue? '0' = some 0 := rfl
  have hval : ((0 * 16 + 0) * 16 + c.toNat / 16) * 16 + c.toNat % 16 = c.toNat := by omega
  simp only [unit?, hzero, hexValue?_hexDigit (show c.toNat / 16 < 16 by omega),
    hexValue?_hexDigit (show c.toNat % 16 < 16 by omega), Option.pure_def, Option.bind_eq_bind,
    Option.bind_some, hval]

theorem unescape?_plain {c : Char} (h : c ≠ '\\') (rest : List Char) :
    unescape? (c :: rest) = (unescape? rest).map (c :: ·) := by
  rw [unescape?.eq_def]
  split
  · next heq => cases heq
  · next heq => exact absurd (List.cons.inj heq).1 h
  · next heq => exact absurd (List.cons.inj heq).1 h
  · next heq => exact absurd (List.cons.inj heq).1 h
  · next heq =>
    obtain ⟨rfl, rfl⟩ := List.cons.inj heq
    cases unescape? rest <;> rfl

theorem unescape?_letter {c d : Char} (h : unescaped? d = some c) (hu : d ≠ 'u') (rest : List Char) :
    unescape? ('\\' :: d :: rest) = (unescape? rest).map (c :: ·) := by
  rw [unescape?]
  · rw [h]
    cases unescape? rest <;> rfl
  · rintro _ _ _ _ _ rfl
    exact absurd rfl hu

/-- The escape of a character is read as this character, whatever follows. -/
theorem unescape?_escape_append (c : Char) (rest : List Char) :
    unescape? (escape c ++ rest) = (unescape? rest).map (c :: ·) := by
  unfold escape
  split
  case h_8 hquote hslash _ _ _ _ _ =>
    split
    · next h => exact unescape?_code (unit?_control h) rest
    · exact unescape?_plain (fun h => hslash h) rest
  all_goals exact unescape?_letter rfl (by decide) rest

/-- **A text with its escapes is read as this text.** -/
theorem unescape?_flatMap_escape (cs : List Char) : unescape? (cs.flatMap escape) = some cs := by
  induction cs with
  | nil => rfl
  | cons c cs ih => rw [List.flatMap_cons, unescape?_escape_append, ih, Option.map_some]

end WarmCheck.Json

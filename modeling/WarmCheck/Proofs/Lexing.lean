import WarmCheck.Json.Text
import WarmCheck.Json.Token
import WarmCheck.Proofs.Decimal

/-!
# Lexing what is written

The machine that cuts documents into tokens can be run piece by piece. Words, numbers in decimal and
quoted texts are each read as one token.

* `Json.Mode.run?`: the tokens that octets complete, and what they leave open.
* `Json.Mode.run?_append`: a document can be cut anywhere.
* **`Json.run?_quote`**, `Json.run?_decimal`: quoted texts and numbers.
-/

namespace WarmCheck.Json

/-! ## Piece by piece -/

/-- The tokens that octets complete, and what they leave open. -/
def Mode.run? (m : Mode) : Bytes → Option (List Token × Mode)
  | [] => some ([], m)
  | b :: bs =>
    match m.step? b with
    | none => none
    | some (ts, m) => (m.run? bs).map fun (us, m) => (ts ++ us, m)

namespace Mode

theorem run?_append (m : Mode) (a b : Bytes) :
    m.run? (a ++ b) =
      (m.run? a).bind fun (ts, m) => (m.run? b).map fun (us, m) => (ts ++ us, m) := by
  induction a generalizing m with
  | nil => cases h : m.run? b <;> simp [run?, h]
  | cons c a ih =>
    rw [List.cons_append, run?, run?]
    cases h : m.step? c with
    | none => rfl
    | some x =>
      obtain ⟨ts, m'⟩ := x
      simp only [ih]
      cases ha : m'.run? a with
      | none => rfl
      | some y =>
        obtain ⟨us, m''⟩ := y
        cases hb : m''.run? b <;> simp [hb]

theorem run?_of_append {m m' m'' : Mode} {a b : Bytes} {ts us : List Token}
    (ha : m.run? a = some (ts, m')) (hb : m'.run? b = some (us, m'')) :
    m.run? (a ++ b) = some (ts ++ us, m'') := by
  rw [run?_append, ha, Option.bind_some]
  simp only [hb, Option.map_some]

end Mode

theorem Token.lexFrom?_eq (m : Mode) (bs : Bytes) :
    lexFrom? m bs = (m.run? bs).bind fun (ts, m) => m.finish?.map (ts ++ ·) := by
  induction bs generalizing m with
  | nil => cases h : m.finish? <;> simp [lexFrom?, Mode.run?, h]
  | cons b bs ih =>
    rw [lexFrom?, Mode.run?]
    cases h : m.step? b with
    | none => rfl
    | some x =>
      obtain ⟨ts, m'⟩ := x
      simp only [ih]
      cases hr : m'.run? bs with
      | none => rfl
      | some y =>
        obtain ⟨us, m''⟩ := y
        cases hf : m''.finish? <;> simp [hf]

/-! ## Quoted text -/

/-- An octet that stands in a string for itself. -/
def isPlain (b : UInt8) : Bool := 0x20 ≤ b && b ≠ 0x22 && b ≠ 0x5C

theorem run?_plain (body : Bytes) {bs : Bytes} (h : bs.all isPlain = true) :
    (Mode.string body).run? bs = some ([], .string (bs.reverse ++ body)) := by
  induction bs generalizing body with
  | nil => rfl
  | cons b bs ih =>
    rw [List.all_cons, Bool.and_eq_true] at h
    obtain ⟨hb, hbs⟩ := h
    simp only [isPlain, Bool.and_eq_true, decide_eq_true_eq] at hb
    obtain ⟨⟨hlow, hquote⟩, hslash⟩ := hb
    have hstep : (Mode.string body).step? b = some ([], .string (b :: body)) := by
      rw [Mode.step?, if_neg hquote, if_neg hslash, if_neg (UInt8.not_lt.mpr hlow)]
    rw [Mode.run?, hstep]
    simp only [ih _ hbs]
    simp

/-- The octets of a character that is not ASCII stand for themselves, and so do those of other characters
but controls, quotes and backslashes. -/
theorem isPlain_encodeChar {c : Char} (hlow : 0x20 ≤ c.toNat) (hquote : c ≠ '"') (hslash : c ≠ '\\') :
    (Utf8.encodeChar c).all isPlain = true := by
  have hhigh : ∀ {n : Nat}, 0x80 ≤ n → n < 256 → isPlain (Utf8.octet n) = true := by
    intro n h1 h2
    have hn := Utf8.toNat_octet h2
    simp only [isPlain, Bool.and_eq_true, decide_eq_true_eq]
    refine ⟨⟨?_, ?_⟩, ?_⟩
    · rw [UInt8.le_iff_toNat_le, hn]
      exact Nat.le_trans (by decide) h1
    · intro h
      rw [h] at hn
      have : (0x22 : UInt8).toNat = 0x22 := rfl
      omega
    · intro h
      rw [h] at hn
      have : (0x5C : UInt8).toNat = 0x5C := rfl
      omega
  have hvalid := Utf8.toNat_lt_or c
  simp only [Utf8.encodeChar]
  split
  · have hn : (Utf8.octet c.toNat).toNat = c.toNat := Utf8.toNat_octet (by omega)
    simp only [List.all_cons, List.all_nil, Bool.and_true, isPlain, Bool.and_eq_true, decide_eq_true_eq]
    refine ⟨⟨?_, ?_⟩, ?_⟩
    · rw [UInt8.le_iff_toNat_le, hn]
      exact hlow
    · intro h
      rw [h] at hn
      exact hquote (Char.toNat_inj.mp hn.symm)
    · intro h
      rw [h] at hn
      exact hslash (Char.toNat_inj.mp hn.symm)
  split
  · simp only [List.all_cons, List.all_nil, Bool.and_true, Bool.and_eq_true]
    exact ⟨hhigh (by omega) (by omega), hhigh (by omega) (by omega)⟩
  split
  · simp only [List.all_cons, List.all_nil, Bool.and_true, Bool.and_eq_true]
    exact ⟨hhigh (by omega) (by omega), hhigh (by omega) (by omega), hhigh (by omega) (by omega)⟩
  · simp only [List.all_cons, List.all_nil, Bool.and_true, Bool.and_eq_true]
    exact ⟨hhigh (by omega) (by omega), hhigh (by omega) (by omega), hhigh (by omega) (by omega),
      hhigh (by omega) (by omega)⟩

theorem run?_hex (body : Bytes) {x y : UInt8} (hx : isHex x = true) (hy : isHex y = true) :
    (Mode.hex body 2).run? [x, y] = some ([], .string (y :: x :: body)) := by
  have hfirst : (Mode.hex body 2).step? x = some ([], .hex (x :: body) 1) := by
    rw [Mode.step?, if_pos hx, if_neg (by decide)]
  have hsecond : (Mode.hex (x :: body) 1).step? y = some ([], .string (y :: x :: body)) := by
    rw [Mode.step?, if_pos hy, if_pos (Nat.le_refl 1)]
  simp only [Mode.run?, hfirst, hsecond, Option.map_some, List.append_nil]

theorem run?_control (body : Bytes) {n : Nat} (h : n < 256) :
    (Mode.string body).run?
        (Utf8.encode ['\\', 'u', '0', '0', hexDigit (n / 16), hexDigit (n % 16)]) =
      some ([], .string ((Utf8.encode
        ['\\', 'u', '0', '0', hexDigit (n / 16), hexDigit (n % 16)]).reverse ++ body)) := by
  have hdigit : ∀ i < 16, Utf8.encodeChar (hexDigit i) = [Utf8.octet (hexDigit i).toNat] ∧
      isHex (Utf8.octet (hexDigit i).toNat) = true := by decide
  obtain ⟨hx, hxhex⟩ := hdigit (n / 16) (by omega)
  obtain ⟨hy, hyhex⟩ := hdigit (n % 16) (by omega)
  have hencode : Utf8.encode ['\\', 'u', '0', '0', hexDigit (n / 16), hexDigit (n % 16)] =
      [0x5C, 0x75, 0x30, 0x30, Utf8.octet (hexDigit (n / 16)).toNat,
        Utf8.octet (hexDigit (n % 16)).toNat] := by
    simp only [Utf8.encode, List.flatMap_cons, List.flatMap_nil, hx, hy]
    rfl
  have hmark : (Mode.string body).run? [0x5C, 0x75, 0x30, 0x30] =
      some ([], .hex (0x30 :: 0x30 :: 0x75 :: 0x5C :: body) 2) := rfl
  rw [hencode]
  exact Mode.run?_of_append hmark (run?_hex _ hxhex hyhex)

/-- The escape of a character leaves the string open. -/
theorem run?_escape (body : Bytes) (c : Char) :
    (Mode.string body).run? (Utf8.encode (escape c)) =
      some ([], .string ((Utf8.encode (escape c)).reverse ++ body)) := by
  unfold escape
  split
  case h_8 hquote hslash _ _ _ _ _ =>
    split
    · next h => exact run?_control body (by omega)
    · next h =>
      have henc : Utf8.encode [c] = Utf8.encodeChar c := List.flatMap_singleton _ _
      rw [henc]
      exact run?_plain body (isPlain_encodeChar (by omega) (fun h => hquote h) fun h => hslash h)
  all_goals rfl

theorem run?_flatMap_escape (body : Bytes) (cs : List Char) :
    (Mode.string body).run? (Utf8.encode (cs.flatMap escape)) =
      some ([], .string ((Utf8.encode (cs.flatMap escape)).reverse ++ body)) := by
  induction cs generalizing body with
  | nil => rfl
  | cons c cs ih =>
    have h := Mode.run?_of_append (run?_escape body c) (ih _)
    rwa [← Utf8.encode_append, List.nil_append, ← List.append_assoc, ← List.reverse_append,
      ← Utf8.encode_append, ← List.flatMap_cons] at h

/-- **A quoted text is read as one token**, whose body is the text with its escapes. -/
theorem run?_quote (cs : List Char) :
    Mode.between.run? (Utf8.encode (quote cs)) =
      some ([.string (Utf8.encode (cs.flatMap escape))], .between) := by
  have hopen : Mode.between.run? (Utf8.encode ['"']) = some ([], .string []) := rfl
  have hbody := run?_flatMap_escape [] cs
  rw [List.append_nil] at hbody
  have hclose : (Mode.string (Utf8.encode (cs.flatMap escape)).reverse).run? (Utf8.encode ['"']) =
      some ([.string (Utf8.encode (cs.flatMap escape)).reverse.reverse], .between) := rfl
  rw [List.reverse_reverse] at hclose
  have h := Mode.run?_of_append (Mode.run?_of_append hopen hbody) hclose
  rwa [← Utf8.encode_append, ← Utf8.encode_append] at h

/-! ## Numbers -/

theorem encodeChar_of_isDigit {c : Char} (h : c.isDigit = true) :
    Utf8.encodeChar c = [Utf8.octet c.toNat] ∧ isDigit (Utf8.octet c.toNat) = true := by
  obtain ⟨h1, h2⟩ := Text.isDigit_iff.mp h
  have hn : (Utf8.octet c.toNat).toNat = c.toNat := Utf8.toNat_octet (by omega)
  refine ⟨by simp only [Utf8.encodeChar, if_pos (show c.toNat < 0x80 by omega)], ?_⟩
  simp only [isDigit, Bool.and_eq_true, decide_eq_true_eq, UInt8.le_iff_toNat_le, hn]
  exact ⟨h1, h2⟩

theorem encode_digits {ds : List Char} (h : ∀ d ∈ ds, d.isDigit = true) :
    Utf8.encode ds = ds.map (fun d => Utf8.octet d.toNat) ∧ (Utf8.encode ds).all isDigit = true := by
  induction ds with
  | nil => exact ⟨rfl, rfl⟩
  | cons d ds ih =>
    obtain ⟨hmap, hall⟩ := ih fun e he => h e (List.mem_cons_of_mem d he)
    obtain ⟨hd, hdigit⟩ := encodeChar_of_isDigit (h d List.mem_cons_self)
    rw [Utf8.encode, List.flatMap_cons, ← Utf8.encode, hd, List.map_cons, hmap]
    rw [hmap] at hall
    exact ⟨rfl, by rw [List.singleton_append, List.all_cons, hdigit, hall]; rfl⟩

/-- Digits are read as such by a part of a number that goes on with digits. -/
theorem run?_digits {part : NumberPart} (hpart : ∀ b, isDigit b = true → part.next? b = some part) (text : Bytes)
    {bs : Bytes} (h : bs.all isDigit = true) :
    (Mode.number part text).run? bs = some ([], .number part (bs.reverse ++ text)) := by
  induction bs generalizing text with
  | nil => rfl
  | cons b bs ih =>
    rw [List.all_cons, Bool.and_eq_true] at h
    have hstep : (Mode.number part text).step? b = some ([], .number part (b :: text)) := by
      simp only [Mode.step?, hpart b h.1]
    rw [Mode.run?, hstep]
    simp only [ih _ h.2]
    simp

theorem next?_whole (b : UInt8) (h : isDigit b = true) : NumberPart.whole.next? b = some .whole := if_pos h

/-- A number in decimal is read as one number, which is complete. -/
theorem run?_decimal (n : Nat) :
    ∃ part : NumberPart, part.isFinal = true ∧ (part = .zero ∨ part = .whole) ∧
      Mode.between.run? (Utf8.encode (Text.decimal n)) =
        some ([], .number part (Utf8.encode (Text.decimal n)).reverse) := by
  rcases Nat.eq_zero_or_pos n with rfl | hn
  · exact ⟨.zero, rfl, .inl rfl, rfl⟩
  · refine ⟨.whole, rfl, .inr rfl, ?_⟩
    obtain ⟨d, ds, hds⟩ := List.exists_cons_of_ne_nil (Text.decimal_ne_nil n)
    have hdigits : ∀ e ∈ d :: ds, e.isDigit = true := fun e he =>
      Text.isDigit_of_mem_decimal (n := n) (by rw [hds]; exact he)
    have hhead : d ≠ '0' := fun h => Text.head_decimal_ne_zero hn (by rw [hds, h, List.head?_cons])
    have hstart : ∀ n < 58, 49 ≤ n →
        Mode.between.run? [Utf8.octet n] = some ([], .number .whole [Utf8.octet n]) := by decide
    have hfirst : Mode.between.run? [Utf8.octet d.toNat] =
        some ([], .number .whole [Utf8.octet d.toNat]) := by
      obtain ⟨h1, h2⟩ := Text.isDigit_iff.mp (hdigits d List.mem_cons_self)
      have hne : d.toNat ≠ ('0').toNat := fun h => hhead (Char.toNat_inj.mp h)
      have hzero : ('0').toNat = 48 := rfl
      exact hstart d.toNat (by omega) (by omega)
    have hrest := run?_digits next?_whole [Utf8.octet d.toNat]
      (encode_digits fun e he => hdigits e (List.mem_cons_of_mem d he)).2
    have h := Mode.run?_of_append hfirst hrest
    rw [← (encodeChar_of_isDigit (hdigits d List.mem_cons_self)).1] at h
    rw [hds, Utf8.encode, List.flatMap_cons, ← Utf8.encode, List.reverse_append, h]
    rw [(encodeChar_of_isDigit (hdigits d List.mem_cons_self)).1]
    rfl

end WarmCheck.Json

import Mathlib.Data.List.Chain
import WarmCheck.Proofs.Spelling

/-!
# Documents

The grammar of JSON: how tokens are written, which tokens make a value, and where blanks may stand. Every document of
this grammar is read as the value for which it stands, whatever its layout and however deep the value is.

* `Json.IsNumber`, `Json.IsBody`, `Json.Token.IsText`: how tokens are written.
* `Json.Token.AreWritten`: tokens with blanks anywhere around them.
* `Json.Value.tokens`, `Json.Value.IsDocument`: the documents of a value.
* `Json.Token.lex?_of_areWritten`: a document is cut into its tokens.
* `Json.Reading.run?_tokens`: the tokens of a value are read as this value.
* **`Json.Value.parse?_of_isDocument`**: documents are read as their values.
-/

namespace WarmCheck.Json

/-! ## How tokens are written -/

/-- Decimal digits, one or more. -/
def IsDigits (ds : Bytes) : Prop := ds ≠ [] ∧ ds.all isDigit = true

/-- A whole number, which has no zeros in front. -/
def IsWhole (ds : Bytes) : Prop := IsDigits ds ∧ (ds.head? = some 0x30 → ds = [0x30])

instance (ds : Bytes) : Decidable (IsDigits ds) := inferInstanceAs (Decidable (ds ≠ [] ∧ ds.all isDigit = true))

instance (ds : Bytes) : Decidable (IsWhole ds) :=
  inferInstanceAs (Decidable (IsDigits ds ∧ (ds.head? = some 0x30 → ds = [0x30])))

/-- What may follow a whole number: a point and digits. -/
inductive IsFraction : Bytes → Prop where
  | absent : IsFraction []
  | point {ds : Bytes} (hds : IsDigits ds) : IsFraction (0x2E :: ds)

/-- What may follow that: a power of ten. -/
inductive IsPower : Bytes → Prop where
  | absent : IsPower []
  | mark {e : UInt8} {sign ds : Bytes} (he : e = 0x65 ∨ e = 0x45) (hsign : sign = [] ∨ sign = [0x2B] ∨ sign = [0x2D])
      (hds : IsDigits ds) : IsPower (e :: (sign ++ ds))

/-- A number, as it is written. -/
inductive IsNumber : Bytes → Prop where
  | mk {sign whole fraction power : Bytes} (hsign : sign = [] ∨ sign = [0x2D]) (hwhole : IsWhole whole)
      (hfraction : IsFraction fraction) (hpower : IsPower power) : IsNumber (sign ++ whole ++ fraction ++ power)

/-- What may stand between the quotes of a string. The four digits of an escape may be those of half a surrogate pair,
and octets from 0x80 on need not be UTF-8: such a string is no text, but it is a string. -/
inductive IsBody : Bytes → Prop where
  | nil : IsBody []
  | plain {b : UInt8} {bs : Bytes} (hb : isPlain b = true) (hbs : IsBody bs) : IsBody (b :: bs)
  | letter {b : UInt8} {bs : Bytes} (hb : isEscape b = true) (hbs : IsBody bs) : IsBody (0x5C :: b :: bs)
  | code {a b c d : UInt8} {bs : Bytes} (ha : isHex a = true) (hb : isHex b = true) (hc : isHex c = true)
      (hd : isHex d = true) (hbs : IsBody bs) : IsBody (0x5C :: 0x75 :: a :: b :: c :: d :: bs)

theorem IsBody.of_isPlain {bs : Bytes} (h : bs.all isPlain = true) : IsBody bs := by
  induction bs with
  | nil => exact .nil
  | cons b bs ih =>
    rw [List.all_cons, Bool.and_eq_true] at h
    exact .plain h.1 (ih h.2)

namespace Token

/-- How a token is written. -/
inductive IsText : Token → Bytes → Prop where
  | openObject : IsText openObject [0x7B]
  | closeObject : IsText closeObject [0x7D]
  | openArray : IsText openArray [0x5B]
  | closeArray : IsText closeArray [0x5D]
  | colon : IsText colon [0x3A]
  | comma : IsText comma [0x2C]
  | null : IsText null (Utf8.ofString "null")
  | bool (b : Bool) : IsText (bool b) (Utf8.ofString (if b then "true" else "false"))
  | number {text : Bytes} (h : IsNumber text) : IsText (number text) text
  | string {body : Bytes} (h : IsBody body) : IsText (string body) (0x22 :: (body ++ [0x22]))

/-- Tokens as they are written one after the other, with any blanks before, between and behind them. -/
inductive AreWritten : List Token → Bytes → Prop where
  | nil {gap : Bytes} (hgap : gap.all isSpace = true) : AreWritten [] gap
  | cons {t : Token} {ts : List Token} {gap text rest : Bytes} (hgap : gap.all isSpace = true) (ht : t.IsText text)
      (hts : AreWritten ts rest) : AreWritten (t :: ts) (gap ++ (text ++ rest))

theorem IsText.of_isPlain {body : Bytes} (h : body.all isPlain = true) :
    (Token.string body).IsText (0x22 :: (body ++ [0x22])) := .string (.of_isPlain h)

/-- A token may stand without a blank before it. -/
theorem AreWritten.next {t : Token} {ts : List Token} {text rest : Bytes} (ht : t.IsText text)
    (hts : AreWritten ts rest) : AreWritten (t :: ts) (text ++ rest) := @AreWritten.cons t ts [] text rest rfl ht hts

end Token

/-! ## The tokens of a value -/

namespace Value

mutual

/-- The tokens of a value: for an array and an object, the items and members with commas between them. -/
def tokens : Value → List Token
  | null => [.null]
  | bool b => [.bool b]
  | number text => [.number text]
  | string body => [.string body]
  | array [] => [.openArray, .closeArray]
  | array (v :: vs) => .openArray :: (v.tokens ++ (furtherItems vs ++ [.closeArray]))
  | object [] => [.openObject, .closeObject]
  | object ((key, v) :: ms) =>
    .openObject :: .string key :: .colon :: (v.tokens ++ (furtherMembers ms ++ [.closeObject]))

/-- The tokens of the items of an array behind the first one. -/
def furtherItems : List Value → List Token
  | [] => []
  | v :: vs => .comma :: (v.tokens ++ furtherItems vs)

/-- The tokens of the members of an object behind the first one. -/
def furtherMembers : List (Bytes × Value) → List Token
  | [] => []
  | (key, v) :: ms => .comma :: .string key :: .colon :: (v.tokens ++ furtherMembers ms)

end

/-- The octets are a document of the value. -/
def IsDocument (v : Value) (bs : Bytes) : Prop := Token.AreWritten v.tokens bs

end Value

/-! ## Reading numbers -/

theorem next?_fraction (b : UInt8) (h : isDigit b = true) : NumberPart.fraction.next? b = some .fraction := if_pos h

theorem next?_power (b : UInt8) (h : isDigit b = true) : NumberPart.power.next? b = some .power := if_pos h

theorem next?_point (b : UInt8) (h : isDigit b = true) : NumberPart.point.next? b = some .fraction := if_pos h

theorem next?_sign (b : UInt8) (h : isDigit b = true) : NumberPart.sign.next? b = some .power := if_pos h

theorem start?_of_isDigit {b : UInt8} (hb : isDigit b = true) (hzero : b ≠ 0x30) :
    start? b = some ([], .number .whole [b]) := by
  have hlow : 0x30 ≤ b.toNat := by
    simp only [isDigit, Bool.and_eq_true, decide_eq_true_eq, UInt8.le_iff_toNat_le] at hb
    exact hb.1
  have hspace : isSpace b = false := by
    simp only [isSpace, Bool.or_eq_false_iff, decide_eq_false_iff_not]
    refine ⟨⟨⟨?_, ?_⟩, ?_⟩, ?_⟩ <;> rintro rfl <;> exact absurd hlow (by decide)
  unfold start?
  split <;> simp_all [isDigit]

/-- Digits lead from a part of a number to another one, which goes on with digits. -/
theorem run?_isDigits {part next : NumberPart} (hpart : ∀ b, isDigit b = true → part.next? b = some next)
    (hnext : ∀ b, isDigit b = true → next.next? b = some next) {ds : Bytes} (h : IsDigits ds) (text : Bytes) :
    (Mode.number part text).run? ds = some ([], .number next (ds.reverse ++ text)) := by
  obtain ⟨hne, hdigits⟩ := h
  obtain ⟨b, bs, rfl⟩ := List.exists_cons_of_ne_nil hne
  rw [List.all_cons, Bool.and_eq_true] at hdigits
  have hstep : (Mode.number part text).step? b = some ([], .number next (b :: text)) := by
    simp only [Mode.step?, hpart b hdigits.1]
  rw [Mode.run?, hstep]
  simp only [run?_digits hnext _ hdigits.2]
  simp

/-- A whole number is read alike with and without a minus before it. -/
theorem run?_isWhole {whole : Bytes} (h : IsWhole whole) :
    ∃ part : NumberPart, (part = .zero ∨ part = .whole) ∧
      Mode.between.run? whole = some ([], .number part whole.reverse) ∧
      ∀ text, (Mode.number .minus text).run? whole = some ([], .number part (whole.reverse ++ text)) := by
  obtain ⟨⟨hne, hdigits⟩, hzero⟩ := h
  obtain ⟨b, bs, rfl⟩ := List.exists_cons_of_ne_nil hne
  rw [List.all_cons, Bool.and_eq_true] at hdigits
  obtain ⟨hb, hbs⟩ := hdigits
  by_cases hb0 : b = 0x30
  · subst hb0
    obtain rfl : bs = [] := (List.cons.inj (hzero rfl)).2
    exact ⟨.zero, .inl rfl, rfl, fun _ => rfl⟩
  · refine ⟨.whole, .inr rfl, ?_, fun text => ?_⟩
    · rw [Mode.run?, Mode.step?, start?_of_isDigit hb hb0]
      simp only [run?_digits next?_whole _ hbs]
      simp
    · have hstep : (Mode.number .minus text).step? b = some ([], .number .whole (b :: text)) := by
        simp [Mode.step?, NumberPart.next?, hb0, hb]
      rw [Mode.run?, hstep]
      simp only [run?_digits next?_whole _ hbs]
      simp

theorem run?_isFraction {part : NumberPart} (hpart : part = .zero ∨ part = .whole) {fraction : Bytes}
    (h : IsFraction fraction) (text : Bytes) :
    ∃ next : NumberPart, (next = .zero ∨ next = .whole ∨ next = .fraction) ∧
      (Mode.number part text).run? fraction = some ([], .number next (fraction.reverse ++ text)) := by
  cases h with
  | absent => exact ⟨part, hpart.imp_right .inl, rfl⟩
  | @point ds hds =>
    have hpoint : (Mode.number part text).run? [0x2E] = some ([], .number .point (0x2E :: text)) := by
      rcases hpart with rfl | rfl <;> rfl
    have hdigits := run?_isDigits next?_point next?_fraction hds (0x2E :: text)
    have hall := Mode.run?_of_append hpoint hdigits
    exact ⟨.fraction, .inr (.inr rfl), by simpa using hall⟩

theorem run?_isPower {part : NumberPart} (hpart : part = .zero ∨ part = .whole ∨ part = .fraction) {power : Bytes}
    (h : IsPower power) (text : Bytes) :
    ∃ last : NumberPart, last.isFinal = true ∧
      (Mode.number part text).run? power = some ([], .number last (power.reverse ++ text)) := by
  cases h with
  | absent => exact ⟨part, by rcases hpart with rfl | rfl | rfl <;> rfl, rfl⟩
  | @mark e sign ds he hsign hds =>
    have hmark : (Mode.number part text).run? [e] = some ([], .number .exponent (e :: text)) := by
      rcases hpart with rfl | rfl | rfl <;> rcases he with rfl | rfl <;> rfl
    have hrest : (Mode.number .exponent (e :: text)).run? (sign ++ ds) =
        some ([], .number .power ((sign ++ ds).reverse ++ e :: text)) := by
      rcases hsign with rfl | hsign
      · refine run?_isDigits (fun b h => ?_) next?_power hds _
        have hsign : ¬(b = 0x2B ∨ b = 0x2D) := by rintro (rfl | rfl) <;> exact absurd h (by decide)
        rw [NumberPart.next?, if_neg hsign, if_pos h]
      · obtain ⟨b, rfl, hstep⟩ : ∃ b, sign = [b] ∧ (Mode.number .exponent (e :: text)).run? [b] =
            some ([], .number .sign (b :: e :: text)) := by
          rcases hsign with rfl | rfl
          · exact ⟨0x2B, rfl, rfl⟩
          · exact ⟨0x2D, rfl, rfl⟩
        have hdigits := run?_isDigits next?_sign next?_power hds (b :: e :: text)
        simpa using Mode.run?_of_append hstep hdigits
    exact ⟨.power, rfl, by simpa using Mode.run?_of_append hmark hrest⟩

/-- A number is read as one number, which may end where it ends. -/
theorem run?_isNumber {bs : Bytes} (h : IsNumber bs) :
    ∃ part : NumberPart, part.isFinal = true ∧ Mode.between.run? bs = some ([], .number part bs.reverse) := by
  cases h with
  | @mk sign whole fraction power hsign hwhole hfraction hpower =>
    obtain ⟨part, hpart, hstart, hminus⟩ := run?_isWhole hwhole
    have hsigned : Mode.between.run? (sign ++ whole) = some ([], .number part (sign ++ whole).reverse) := by
      rcases hsign with rfl | rfl
      · exact hstart
      · have hopen : Mode.between.run? [0x2D] = some ([], .number .minus [0x2D]) := rfl
        simpa using Mode.run?_of_append hopen (hminus [0x2D])
    obtain ⟨next, hnext, hfract⟩ := run?_isFraction hpart hfraction (sign ++ whole).reverse
    obtain ⟨last, hlast, hpow⟩ := run?_isPower hnext hpower (fraction.reverse ++ (sign ++ whole).reverse)
    have hall := Mode.run?_of_append (Mode.run?_of_append hsigned hfract) hpow
    rw [← List.reverse_append, ← List.reverse_append] at hall
    exact ⟨last, hlast, hall⟩

/-! ## Reading strings -/

/-- What may stand between quotes is taken for the body of a string. -/
theorem run?_isBody {bs : Bytes} (h : IsBody bs) (body : Bytes) :
    (Mode.string body).run? bs = some ([], .string (bs.reverse ++ body)) := by
  induction h generalizing body with
  | nil => rfl
  | @plain b bs hb hbs ih =>
    have hone : [b].all isPlain = true := by rw [List.all_cons, hb]; rfl
    simpa using Mode.run?_of_append (run?_plain body hone) (ih ([b].reverse ++ body))
  | @letter b bs hb hbs ih =>
    have hmark : (Mode.string body).run? [0x5C] = some ([], .escape (0x5C :: body)) := rfl
    have hletter : (Mode.escape (0x5C :: body)).run? [b] = some ([], .string (b :: 0x5C :: body)) := by
      have hu : b ≠ 0x75 := by rintro rfl; exact absurd hb (by decide)
      rw [Mode.run?, Mode.step?, if_neg hu, if_pos hb]
      rfl
    simpa using Mode.run?_of_append (Mode.run?_of_append hmark hletter) (ih (b :: 0x5C :: body))
  | @code a b c d bs ha hb hc hd hbs ih =>
    have hmark : (Mode.string body).run? [0x5C, 0x75] = some ([], .hex (0x75 :: 0x5C :: body) 4) := rfl
    have htwo : (Mode.hex (0x75 :: 0x5C :: body) 4).run? [a, b] =
        some ([], .hex (b :: a :: 0x75 :: 0x5C :: body) 2) := by
      simp [Mode.run?, Mode.step?, ha, hb]
    have hcode := Mode.run?_of_append (Mode.run?_of_append hmark htwo) (run?_hex _ hc hd)
    simpa using Mode.run?_of_append hcode (ih (d :: c :: b :: a :: 0x75 :: 0x5C :: body))

/-! ## Reading tokens -/

namespace Token

/-- A token is read where it is written. A number is still open there, but it may end. -/
theorem IsText.run? {t : Token} {text : Bytes} (h : t.IsText text) :
    Mode.between.run? text = some ([t], .between) ∨
      t = .number text ∧ ∃ part : NumberPart, part.isFinal = true ∧
        Mode.between.run? text = some ([], .number part text.reverse) := by
  cases h with
  | openObject | closeObject | openArray | closeArray | colon | comma | null => exact .inl rfl
  | bool b => cases b <;> exact .inl rfl
  | number h => exact .inr ⟨rfl, run?_isNumber h⟩
  | @string body h =>
    have hopen : Mode.between.run? [0x22] = some ([], .string []) := rfl
    have hclose : (Mode.string (body.reverse ++ [])).run? [0x22] = some ([.string body], .between) := by
      rw [List.append_nil]
      simp [Mode.run?, Mode.step?]
    exact .inl (by simpa using Mode.run?_of_append (Mode.run?_of_append hopen (run?_isBody h [])) hclose)

theorem run?_blanks {gap : Bytes} (h : gap.all isSpace = true) : Mode.between.run? gap = some ([], .between) := by
  induction gap with
  | nil => rfl
  | cons b gap ih =>
    rw [List.all_cons, Bool.and_eq_true] at h
    rw [Mode.run?, Mode.step?, start?_eq_iff.mpr h.1]
    simp only [ih h.2]
    rfl

/-- The marks that structure a document. -/
def isMark : Token → Bool
  | openObject | closeObject | openArray | closeArray | colon | comma => true
  | null | bool _ | number _ | string _ => false

/-- Tokens of which none need a blank between them: of two neighbours one is a mark. -/
def AreSeparate (ts : List Token) : Prop := ts.IsChain fun t u => t.isMark = true ∨ u.isMark = true

theorem endsNumber_of_isSpace {b : UInt8} (h : isSpace b = true) : endsNumber b = true := by
  simp only [isSpace, Bool.or_eq_true, decide_eq_true_eq] at h
  rcases h with ((rfl | rfl) | rfl) | rfl <;> rfl

theorem IsText.of_isMark {t : Token} {text : Bytes} (h : t.IsText text) (hmark : t.isMark = true) :
    ∃ b, text = [b] ∧ endsNumber b = true := by
  cases h with
  | openObject | closeObject | openArray | closeArray | colon | comma => exact ⟨_, rfl, rfl⟩
  | null | bool | number | string => cases hmark

/-- Where no token follows but a mark, a number ends. -/
theorem AreWritten.endsNumber {ts : List Token} {bs : Bytes} (h : AreWritten ts bs)
    (hmark : ∀ t ∈ ts.head?, t.isMark = true) : ∀ b ∈ bs.head?, Json.endsNumber b = true := by
  have hblank : ∀ {b : UInt8} {gap : Bytes}, (b :: gap).all isSpace = true → Json.endsNumber b = true := by
    intro b gap hgap
    rw [List.all_cons, Bool.and_eq_true] at hgap
    exact endsNumber_of_isSpace hgap.1
  cases h with
  | nil hgap =>
    cases bs with
    | nil => exact fun b hb => absurd hb (Option.not_mem_none b)
    | cons b bs => exact fun c hc => Option.some.inj hc ▸ hblank hgap
  | @cons t ts gap text rest hgap ht hts =>
    cases gap with
    | nil =>
      obtain ⟨b, rfl, hb⟩ := ht.of_isMark (hmark t rfl)
      exact fun c hc => Option.some.inj hc ▸ hb
    | cons b gap => exact fun c hc => Option.some.inj hc ▸ hblank hgap

/-- A number that may end is read as if what follows stood alone, unless this goes on with it. -/
theorem lexFrom?_number {part : NumberPart} (hpart : part.isFinal = true) (text : Bytes) {bs : Bytes}
    (h : ∀ b ∈ bs.head?, Json.endsNumber b = true) :
    lexFrom? (.number part text) bs = (lex? bs).map (.number text.reverse :: ·) := by
  cases bs with
  | nil => simp [lex?, lexFrom?, Mode.finish?, hpart]
  | cons b bs =>
    rw [lexFrom?_eq, lex?, lexFrom?_eq, Mode.run?_number hpart text (h b rfl)]
    cases Mode.between.run? (b :: bs) with
    | none => rfl
    | some x =>
      obtain ⟨ts, m⟩ := x
      cases hf : m.finish? <;> simp [hf]

/-- **A document is cut into its tokens.** -/
theorem lex?_of_areWritten {ts : List Token} {bs : Bytes} (h : AreWritten ts bs) (hts : AreSeparate ts) :
    lex? bs = some ts := by
  induction h with
  | nil hgap => exact lex?_eq_nil_iff.mpr hgap
  | @cons t ts gap text rest hgap ht hrest ih =>
    obtain ⟨hnext, hmore⟩ := List.isChain_cons.mp hts
    rw [lex?_append (run?_blanks hgap)]
    rcases ht.run? with hrun | ⟨rfl, part, hpart, hrun⟩
    · rw [lex?_append hrun, ih hmore]
      rfl
    · have hends := hrest.endsNumber fun u hu => (hnext u hu).resolve_left Bool.false_ne_true
      rw [lex?, lexFrom?_append hrun, lexFrom?_number hpart _ hends, ih hmore, List.reverse_reverse]
      rfl

/-- What may follow a value: nothing, or a mark and what follows that. -/
structure MayFollow (ts : List Token) : Prop where
  separate : AreSeparate ts
  mark : ∀ t ∈ ts.head?, t.isMark = true

theorem MayFollow.nil : MayFollow [] := ⟨List.isChain_nil, by simp⟩

theorem AreSeparate.cons {t : Token} {ts : List Token} (ht : t.isMark = true) (h : AreSeparate ts) :
    AreSeparate (t :: ts) := List.isChain_cons.mpr ⟨fun _ _ => .inl ht, h⟩

theorem MayFollow.cons {t : Token} {ts : List Token} (ht : t.isMark = true) (h : AreSeparate ts) :
    MayFollow (t :: ts) := ⟨.cons ht h, fun _ hu => Option.some.inj hu ▸ ht⟩

theorem MayFollow.after {t : Token} {ts : List Token} (h : MayFollow ts) : AreSeparate (t :: ts) :=
  List.isChain_cons.mpr ⟨fun u hu => .inr (h.mark u hu), h.separate⟩

end Token

/-! ## Reading values -/

namespace Value

open Token

mutual

theorem areSeparate_tokens : ∀ (v : Value) {us : List Token}, MayFollow us → AreSeparate (v.tokens ++ us)
  | null, _, h | bool _, _, h | number _, _, h | string _, _, h => h.after
  | array [], _, h | object [], _, h => .cons rfl (.cons rfl h.separate)
  | array (v :: vs), us, h => by
    have hrest := mayFollow_furtherItems vs (.cons (t := .closeArray) rfl h.separate)
    simpa [tokens] using (areSeparate_tokens v hrest).cons (t := .openArray) rfl
  | object ((key, v) :: ms), us, h => by
    have hrest := mayFollow_furtherMembers ms (.cons (t := .closeObject) rfl h.separate)
    have hmember := (MayFollow.cons (t := .colon) rfl (areSeparate_tokens v hrest)).after (t := .string key)
    simpa [tokens] using hmember.cons (t := .openObject) rfl

theorem mayFollow_furtherItems : ∀ (vs : List Value) {us : List Token}, MayFollow us → MayFollow (furtherItems vs ++ us)
  | [], _, h => h
  | v :: vs, us, h => by
    simpa [furtherItems] using MayFollow.cons (t := .comma) rfl (areSeparate_tokens v (mayFollow_furtherItems vs h))

theorem mayFollow_furtherMembers : ∀ (ms : List (Bytes × Value)) {us : List Token},
    MayFollow us → MayFollow (furtherMembers ms ++ us)
  | [], _, h => h
  | (key, v) :: ms, us, h => by
    have hvalue := areSeparate_tokens v (mayFollow_furtherMembers ms h)
    have hmember := (MayFollow.cons (t := .colon) rfl hvalue).after (t := .string key)
    simpa [furtherMembers] using MayFollow.cons (t := .comma) rfl hmember

end

/-- A value does not begin with the end of an array. -/
theorem exists_tokens (v : Value) : ∃ t ts, v.tokens = t :: ts ∧ t ≠ .closeArray := by
  cases v with
  | array items => cases items <;> exact ⟨.openArray, _, by rw [tokens], Token.noConfusion⟩
  | object members =>
    cases members with
    | nil => exact ⟨.openObject, _, by rw [tokens], Token.noConfusion⟩
    | cons m ms => exact ⟨.openObject, _, by rw [tokens], Token.noConfusion⟩
  | null | bool | number | string => exact ⟨_, _, by rw [tokens], Token.noConfusion⟩

/-- The first item of an array is read like any value. -/
theorem run?_item (v : Value) (stack : List Frame) (us : List Token) :
    (Reading.item stack).run? (v.tokens ++ us) = (Reading.value (.array [] :: stack)).run? (v.tokens ++ us) := by
  obtain ⟨t, ts, htokens, ht⟩ := v.exists_tokens
  have hstep : (Reading.item stack).step? t = (Reading.value (.array [] :: stack)).step? t := by
    cases t <;> first | exact absurd rfl ht | rfl
  rw [htokens, List.cons_append, Reading.run?, Reading.run?, hstep]

mutual

/-- The tokens of a value are read as this value, whatever is open around it and whatever follows. -/
theorem run?_tokens (stack : List Frame) (us : List Token) : ∀ v : Value,
    (Reading.value stack).run? (v.tokens ++ us) = (Reading.after v stack).run? us
  | null | bool _ | number _ | string _ | array [] | object [] => rfl
  | array (v :: vs) => by
    have hopen : (Reading.value stack).run? ((array (v :: vs)).tokens ++ us) =
        (Reading.item stack).run? (v.tokens ++ (furtherItems vs ++ .closeArray :: us)) := by
      rw [tokens]; simp [Reading.run?, Reading.step?, Reading.begin?]
    rw [hopen, run?_item, run?_tokens (.array [] :: stack), run?_furtherItems]
    rfl
  | object ((key, v) :: ms) => by
    have hopen : (Reading.value stack).run? ((object ((key, v) :: ms)).tokens ++ us) =
        (Reading.value (.object [] key :: stack)).run? (v.tokens ++ (furtherMembers ms ++ .closeObject :: us)) := by
      rw [tokens]; simp [Reading.run?, Reading.step?, Reading.begin?]
    rw [hopen, run?_tokens (.object [] key :: stack), run?_furtherMembers]
    rfl

theorem run?_furtherItems (stack : List Frame) (us : List Token) : ∀ (v : Value) (items vs : List Value),
    (Reading.after v (.array items :: stack)).run? (furtherItems vs ++ .closeArray :: us) =
      (Reading.after (.array (items.reverse ++ v :: vs)) stack).run? us
  | v, items, [] => by simp [furtherItems, Reading.run?, Reading.step?]
  | v, items, w :: vs => by
    have hcomma : (Reading.after v (.array items :: stack)).run? (furtherItems (w :: vs) ++ .closeArray :: us) =
        (Reading.value (.array (v :: items) :: stack)).run? (w.tokens ++ (furtherItems vs ++ .closeArray :: us)) := by
      rw [furtherItems]; simp [Reading.run?, Reading.step?]
    rw [hcomma, run?_tokens, run?_furtherItems]
    simp

theorem run?_furtherMembers (stack : List Frame) (us : List Token) :
    ∀ (key : Bytes) (v : Value) (members ms : List (Bytes × Value)),
      (Reading.after v (.object members key :: stack)).run? (furtherMembers ms ++ .closeObject :: us) =
        (Reading.after (.object (members.reverse ++ (key, v) :: ms)) stack).run? us
  | key, v, members, [] => by simp [furtherMembers, Reading.run?, Reading.step?]
  | key, v, members, (next, w) :: ms => by
    have hcomma : (Reading.after v (.object members key :: stack)).run?
          (furtherMembers ((next, w) :: ms) ++ .closeObject :: us) =
        (Reading.value (.object ((key, v) :: members) next :: stack)).run?
          (w.tokens ++ (furtherMembers ms ++ .closeObject :: us)) := by
      rw [furtherMembers]; simp [Reading.run?, Reading.step?]
    rw [hcomma, run?_tokens, run?_furtherMembers]
    simp

end

theorem ofTokens?_tokens (v : Value) : ofTokens? v.tokens = some v := by
  have hrun := run?_tokens [] [] v
  rw [List.append_nil] at hrun
  rw [ofTokens?, hrun]
  rfl

/-- **A document is read as its value**, whatever its layout and however deep the value is. -/
theorem parse?_of_isDocument {v : Value} {bs : Bytes} (h : v.IsDocument bs) : parse? bs = some v := by
  have hseparate := areSeparate_tokens v .nil
  rw [List.append_nil] at hseparate
  rw [parse?, lex?_of_areWritten h hseparate, Option.bind_some, ofTokens?_tokens]

end Value

end WarmCheck.Json

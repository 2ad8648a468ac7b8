import Mathlib.Tactic.SplitIfs
import WarmCheck.Json.Value
import WarmCheck.Proofs.Lexing

/-!
# Whole and cut documents

Octets spell tokens whatever follows them, so that documents can be put together from what their parts
spell. A document that opens an object is no value until the object is closed, and a document that has been
read as a value is followed by blanks only.

* `Json.Mode.Spells`: octets that spell tokens, whether or not the last of them is a number.
* `Json.Mode.spells_intercalate`: texts between separators.
* `Json.Reading.isInside_run?`: a container stays open until a token closes it.
* **`Json.Value.parse?_of_cut`**: documents whose end has been cut off.
* `Json.Token.lex?_eq_nil_iff`: only blanks spell nothing.
* **`Json.Value.parse?_append`**: documents with something behind them.
-/

namespace WarmCheck.Json

/-! ## Spelling -/

/-- Octets that spell tokens. A number at the end counts: it may end there. -/
def Mode.Spells (bs : Bytes) (ts : List Token) : Prop :=
  Mode.between.run? bs = some (ts, .between) ∨
    ∃ us part text, (part = .zero ∨ part = .whole) ∧ ts = us ++ [.number text.reverse] ∧
      Mode.between.run? bs = some (us, .number part text)

/-- An octet at which every number ends that has neither point nor exponent. -/
def endsNumber (b : UInt8) : Bool :=
  (NumberPart.zero.next? b).isNone && (NumberPart.whole.next? b).isNone

namespace Mode

theorem Spells.cons {a b : Bytes} {ts us : List Token} (ha : between.run? a = some (ts, .between))
    (hb : Spells b us) : Spells (a ++ b) (ts ++ us) := by
  rcases hb with hb | ⟨vs, part, text, hpart, rfl, hb⟩
  · exact .inl (run?_of_append ha hb)
  · exact .inr ⟨ts ++ vs, part, text, hpart, (List.append_assoc ..).symm, run?_of_append ha hb⟩

theorem next?_eq_none {part : NumberPart} (hpart : part.isFinal = true) {b : UInt8} (hb : endsNumber b = true) :
    part.next? b = none := by
  simp only [endsNumber, Bool.and_eq_true, Option.isNone_iff_eq_none] at hb
  obtain ⟨hzero, hwhole⟩ := hb
  have hdigit : isDigit b ≠ true := fun h => by simp [NumberPart.next?, h] at hwhole
  have hexponent : NumberPart.next?.exponent? b = none := by
    simp only [NumberPart.next?, NumberPart.next?.afterWhole?] at hzero
    split at hzero
    · cases hzero
    · exact hzero
  cases part with
  | zero => exact hzero
  | whole => exact hwhole
  | fraction => rw [NumberPart.next?, if_neg hdigit, hexponent]
  | power => exact if_neg hdigit
  | minus | point | exponent | sign => cases hpart

/-- An octet at which a number ends is read as if the number were not there. -/
theorem run?_number {part : NumberPart} (hpart : part.isFinal = true) (text : Bytes) {b : UInt8}
    (hb : endsNumber b = true) (bs : Bytes) :
    (Mode.number part text).run? (b :: bs) =
      (between.run? (b :: bs)).map fun (ts, m) => (.number text.reverse :: ts, m) := by
  have hstep : (Mode.number part text).step? b =
      (start? b).map fun (ts, m) => (.number text.reverse :: ts, m) := by
    simp only [step?, next?_eq_none hpart hb, hpart, if_true]
  rw [run?, run?, hstep, step?]
  cases start? b with
  | none => rfl
  | some x =>
    obtain ⟨ts, m⟩ := x
    simp only [Option.map_some]
    cases m.run? bs <;> rfl

/-- What is spelled goes on with octets at which a number would end. -/
theorem Spells.run?_append {a bs : Bytes} {ts us : List Token} {b : UInt8} (ha : Spells a ts)
    (hb : endsNumber b = true) (hbs : between.run? (b :: bs) = some (us, .between)) :
    between.run? (a ++ b :: bs) = some (ts ++ us, .between) := by
  rcases ha with ha | ⟨vs, part, text, hpart, rfl, ha⟩
  · exact run?_of_append ha hbs
  · have hfinal : part.isFinal = true := by rcases hpart with rfl | rfl <;> rfl
    have hnumber : (Mode.number part text).run? (b :: bs) =
        some (.number text.reverse :: us, .between) := by
      rw [run?_number hfinal text hb, hbs, Option.map_some]
    rw [run?_of_append ha hnumber, List.append_assoc, List.singleton_append]

/-- Texts between separators spell their tokens between commas. -/
theorem spells_intercalate {κ : Type} {f : κ → List Char} {g : κ → List Token}
    (h : ∀ k, Spells (Utf8.encode (f k)) (g k)) {sep : List Char} {b : UInt8} {bs : Bytes}
    (hsep : Utf8.encode sep = b :: bs) (hb : endsNumber b = true)
    (hbs : between.run? (b :: bs) = some ([.comma], .between)) (k : κ) (ks : List κ) :
    Spells (Utf8.encode (sep.intercalate ((k :: ks).map f)))
      ([Token.comma].intercalate ((k :: ks).map g)) := by
  induction ks generalizing k with
  | nil => simpa [List.intercalate] using h k
  | cons l ks ih =>
    have hfirst := (h k).run?_append hb hbs
    rw [← hsep, ← Utf8.encode_append] at hfirst
    have hall := Spells.cons hfirst (ih l)
    rw [← Utf8.encode_append] at hall
    simpa [List.intercalate, List.intersperse] using hall

end Mode

/-! ## Reading -/

/-- Whether a token closes a container. -/
def Token.isCloser : Token → Bool
  | closeObject | closeArray => true
  | _ => false

namespace Reading

/-- Whether some container is open. -/
def isInside : Reading → Bool
  | value stack | after _ stack => !stack.isEmpty
  | item _ | member _ | key .. | colon .. => true

theorem isInside_begin? {stack : List Frame} (h : stack.isEmpty = false) {t : Token} {r : Reading}
    (hr : begin? stack t = some r) : r.isInside = true := by
  cases t <;> cases hr <;> simp [isInside, h]

theorem isInside_step? {r r' : Reading} (h : r.isInside = true) {t : Token} (ht : t.isCloser = false)
    (hr : r.step? t = some r') : r'.isInside = true := by
  cases r with
  | value stack =>
    have hstack : stack.isEmpty = false := by simpa [isInside] using h
    exact isInside_begin? hstack hr
  | item stack | member stack | key members stack | colon members name stack =>
    cases t <;> first | (cases ht; done) | (cases hr; rfl) | cases hr
  | after v stack =>
    cases stack with
    | nil => cases t <;> cases hr
    | cons frame stack =>
      cases frame <;> cases t <;> first | (cases ht; done) | (cases hr; rfl) | cases hr

theorem isInside_run? {r r' : Reading} (h : r.isInside = true) {ts : List Token}
    (hts : ∀ t ∈ ts, t.isCloser = false) (hr : r.run? ts = some r') : r'.isInside = true := by
  induction ts generalizing r with
  | nil => cases hr; exact h
  | cons t ts ih =>
    rw [run?] at hr
    cases hs : r.step? t with
    | none => rw [hs] at hr; cases hr
    | some s =>
      rw [hs] at hr
      have ht := hts t List.mem_cons_self
      exact ih (isInside_step? h ht hs) (fun u hu => hts u (List.mem_cons_of_mem t hu)) hr

end Reading

/-- The token of a value that is spelled by one. -/
def Value.token : Value → Token
  | bool b => .bool b
  | number text => .number text
  | string body => .string body
  | null | array _ | object _ => .null

theorem Value.ofTokens?_openObject {ts : List Token} (h : ∀ t ∈ ts, t.isCloser = false) :
    ofTokens? (.openObject :: ts) = none := by
  rw [ofTokens?, Reading.run?, Reading.step?, Reading.begin?]
  split
  · next v hr => cases Reading.isInside_run? (r := .member []) rfl h hr
  · rfl

/-! ## Cutting -/

namespace Mode

theorem run?_of_cut {m m' : Mode} {bs cs : Bytes} {ts : List Token} (h : bs <+: cs)
    (hc : m.run? cs = some (ts, m')) : ∃ us m'', m.run? bs = some (us, m'') ∧ us <+: ts := by
  obtain ⟨rest, rfl⟩ := h
  rw [run?_append, Option.bind_eq_some_iff] at hc
  obtain ⟨⟨us, m''⟩, hb, hrest⟩ := hc
  rw [Option.map_eq_some_iff] at hrest
  obtain ⟨⟨vs, last⟩, -, heq⟩ := hrest
  cases heq
  exact ⟨us, m'', hb, List.prefix_append us vs⟩

theorem isCloser_of_mem_finish? {m : Mode} {ts : List Token} (h : m.finish? = some ts) :
    ∀ t ∈ ts, t.isCloser = false := by
  cases m with
  | between => cases h; nofun
  | number part text =>
    rw [finish?] at h
    split at h
    · cases h
      intro t ht
      rw [List.mem_singleton.mp ht]; rfl
    · cases h
  | _ => cases h

end Mode

/-- A document that opens an object, and of which the part that closes something is cut off, is no
value. -/
theorem Value.parse?_of_cut {bs cs : Bytes} {ts : List Token} (hspell : Mode.Spells cs ts)
    (hhead : cs.head? = some 0x7B) (hts : ∀ t ∈ ts, t.isCloser = false) (hbs : bs <+: cs) :
    Value.parse? bs = none := by
  obtain ⟨ts', m, hrun, hts'⟩ : ∃ ts' m, Mode.between.run? cs = some (ts', m) ∧
      ∀ t ∈ ts', t.isCloser = false := by
    rcases hspell with h | ⟨us, part, text, -, rfl, h⟩
    · exact ⟨ts, _, h, hts⟩
    · exact ⟨us, _, h, fun t ht => hts t (List.mem_append_left _ ht)⟩
  obtain ⟨us, m', hus, hbegin⟩ := Mode.run?_of_cut hbs hrun
  cases bs with
  | nil => rfl
  | cons b bs =>
    have hb : b = 0x7B := by
      obtain ⟨rest, rfl⟩ := hbs
      rwa [List.cons_append, List.head?_cons, Option.some.injEq] at hhead
    subst hb
    have hopen : ∃ vs, us = .openObject :: vs := by
      have hstep : Mode.between.step? 0x7B = some ([.openObject], .between) := rfl
      rw [Mode.run?, hstep, Option.map_eq_some_iff] at hus
      obtain ⟨⟨vs, m''⟩, -, heq⟩ := hus
      exact ⟨vs, (congrArg Prod.fst heq).symm⟩
    obtain ⟨vs, rfl⟩ := hopen
    rw [Value.parse?, Token.lex?, Token.lexFrom?_eq, hus, Option.bind_some]
    cases hfinish : m'.finish? with
    | none => simp [hfinish]
    | some ws =>
      simp only [hfinish, Option.map_some, Option.bind_some, List.cons_append]
      refine Value.ofTokens?_openObject fun t ht => ?_
      rcases List.mem_append.mp ht with ht | ht
      · exact hts' t (hbegin.subset (List.mem_cons_of_mem _ ht))
      · exact Mode.isCloser_of_mem_finish? hfinish t ht

/-! ## What follows -/

theorem start?_eq_iff {b : UInt8} : start? b = some ([], .between) ↔ isSpace b = true := by
  constructor
  · intro h
    unfold start? at h
    split at h <;> simp_all
  · intro h
    simp only [isSpace, Bool.or_eq_true, decide_eq_true_eq] at h
    rcases h with ((rfl | rfl) | rfl) | rfl <;> rfl

theorem Mode.step?_of_ne_between {m m' : Mode} (h : m ≠ between) {b : UInt8} {ts : List Token}
    (hstep : m.step? b = some (ts, m')) : ts ≠ [] ∨ m' ≠ between := by
  cases m with
  | between => exact absurd rfl h
  | string body | escape body | hex body left =>
    rw [step?] at hstep
    split_ifs at hstep <;> cases hstep <;> simp
  | number part text =>
    rw [step?] at hstep
    split at hstep
    · cases hstep
      exact .inr Mode.noConfusion
    · split_ifs at hstep
      obtain ⟨_, -, heq⟩ := Option.map_eq_some_iff.mp hstep
      cases heq
      exact .inl (List.cons_ne_nil _ _)
  | word rest token =>
    cases rest with
    | nil => cases hstep
    | cons c rest =>
      cases rest with
      | nil | cons d rest =>
        simp only [step?] at hstep
        split_ifs at hstep
        cases hstep
        simp

theorem Token.lexFrom?_ne_nil {m : Mode} (h : m ≠ .between) (bs : Bytes) : lexFrom? m bs ≠ some [] := by
  induction bs generalizing m with
  | nil =>
    cases m with
    | between => exact absurd rfl h
    | number part text =>
      rw [lexFrom?, Mode.finish?]
      split <;> simp
    | _ => exact (Option.some_ne_none _).symm
  | cons b bs ih =>
    rw [lexFrom?]
    cases hstep : m.step? b with
    | none => exact (Option.some_ne_none _).symm
    | some x =>
      obtain ⟨ts, m'⟩ := x
      intro heq
      obtain ⟨us, hus, happend⟩ := Option.map_eq_some_iff.mp heq
      obtain ⟨rfl, rfl⟩ := List.append_eq_nil_iff.mp happend
      rcases Mode.step?_of_ne_between h hstep with hts | hm
      · exact hts rfl
      · exact ih hm hus

/-- **Only blanks spell nothing.** -/
theorem Token.lex?_eq_nil_iff {bs : Bytes} : lex? bs = some [] ↔ bs.all isSpace = true := by
  induction bs with
  | nil => exact ⟨fun _ => rfl, fun _ => rfl⟩
  | cons b bs ih =>
    rw [List.all_cons, Bool.and_eq_true, ← ih, ← start?_eq_iff, lex?, lexFrom?, Mode.step?]
    constructor
    · intro h
      -- a token that has been opened is in what the rest spells
      cases hstart : start? b with
      | none => rw [hstart] at h; cases h
      | some x =>
        obtain ⟨ts, m⟩ := x
        rw [hstart] at h
        obtain ⟨us, hus, happend⟩ := Option.map_eq_some_iff.mp h
        obtain ⟨rfl, rfl⟩ := List.append_eq_nil_iff.mp happend
        by_cases hm : m = .between
        · subst hm
          exact ⟨rfl, hus⟩
        · exact absurd hus (lexFrom?_ne_nil hm bs)
    · rintro ⟨hstart, hlex⟩
      rw [lex?] at hlex
      simp [hstart, hlex]

theorem Token.lexFrom?_append {m m' : Mode} {a : Bytes} {ts : List Token} (ha : m.run? a = some (ts, m'))
    (b : Bytes) : lexFrom? m (a ++ b) = (lexFrom? m' b).map (ts ++ ·) := by
  rw [lexFrom?_eq, lexFrom?_eq, Mode.run?_append, ha, Option.bind_some]
  cases hb : m'.run? b with
  | none => simp [hb]
  | some x =>
    obtain ⟨us, m''⟩ := x
    cases hf : m''.finish? <;> simp [hb, hf]

theorem Token.lex?_append {a : Bytes} {ts : List Token} (ha : Mode.between.run? a = some (ts, .between))
    (b : Bytes) : lex? (a ++ b) = (lex? b).map (ts ++ ·) := lexFrom?_append ha b

theorem Reading.run?_append (r : Reading) (ts us : List Token) :
    r.run? (ts ++ us) = (r.run? ts).bind (·.run? us) := by
  induction ts generalizing r with
  | nil => rfl
  | cons t ts ih =>
    rw [List.cons_append, run?, run?]
    cases r.step? t with
    | none => rfl
    | some r' => exact ih r'

namespace Value

theorem ofTokens?_append {ts us : List Token} {v : Value} (h : ofTokens? ts = some v) (hus : us ≠ []) :
    ofTokens? (ts ++ us) = none := by
  obtain ⟨t, us, rfl⟩ := List.exists_cons_of_ne_nil hus
  rw [ofTokens?] at h
  split at h
  · next w hrun =>
    have hstep : (Reading.after w []).step? t = none := by cases t <;> rfl
    rw [ofTokens?, Reading.run?_append, hrun, Option.bind_some, Reading.run?, hstep]
  · cases h

/-- **A value is followed by blanks only.** -/
theorem parse?_append {a : Bytes} {ts : List Token} {v : Value}
    (ha : Mode.between.run? a = some (ts, .between)) (hv : ofTokens? ts = some v) (b : Bytes) :
    parse? (a ++ b) = if b.all isSpace then some v else none := by
  rw [parse?, Token.lex?_append ha]
  split
  · next hb => rw [Token.lex?_eq_nil_iff.mpr hb, Option.map_some, List.append_nil, Option.bind_some, hv]
  · next hb =>
    cases hlex : Token.lex? b with
    | none => rfl
    | some us =>
      have hus : us ≠ [] := by
        rintro rfl
        exact hb (Token.lex?_eq_nil_iff.mp hlex)
      rw [Option.map_some, Option.bind_some, ofTokens?_append hv hus]

end Value

end WarmCheck.Json

import Mathlib.Data.List.Induction
import WarmCheck.Output
import WarmCheck.Proofs.Decimal

/-!
# Colours and line endings

The checker may put terminal sequences anywhere into its lines, and end them in the way of one system or another.
None of this is seen in the lines that are read, so that the checker's output means what it means when it is plain.

* `Line.IsColoured`: a text with terminal sequences put in; `Line.dropEscapes_of_isColoured`: they are removed.
* `Output.IsDecorated`: the octets of lines that are coloured, with line endings of either kind.
* `Output.completed_of_isDecorated`: they are read as the lines that they stand for.
* **`Output.feedAll_of_isDecorated`**: decorated lines cause the events of the plain ones.
-/

namespace WarmCheck

/-! ## Octets below 128 -/

namespace Utf8

theorem toNat_of_mem_encodeChar {c : Char} {b : UInt8} (h : b ∈ encodeChar c) (hb : b.toNat < 0x80) :
    c.toNat = b.toNat := by
  have hvalid := toNat_lt_or c
  simp only [encodeChar] at h
  -- only the form of one octet has an octet below 128
  split at h
  · rw [List.mem_singleton.mp h, toNat_octet (by omega)]
  · split at h
    · simp only [List.mem_cons, List.not_mem_nil, or_false] at h
      rcases h with rfl | rfl <;> rw [toNat_octet (by omega)] at hb <;> omega
    · split at h <;> simp only [List.mem_cons, List.not_mem_nil, or_false] at h
      · rcases h with rfl | rfl | rfl <;> rw [toNat_octet (by omega)] at hb <;> omega
      · rcases h with rfl | rfl | rfl | rfl <;> rw [toNat_octet (by omega)] at hb <;> omega

/-- The octet of a character below 128 stands only where this character does. -/
theorem octet_not_mem_encode {c : Char} (hc : c.toNat < 0x80) {cs : List Char} (h : c ∉ cs) :
    octet c.toNat ∉ encode cs := by
  intro hmem
  obtain ⟨d, hd, hoctet⟩ := List.mem_flatMap.mp hmem
  have hsame := toNat_of_mem_encodeChar hoctet (by rwa [toNat_octet (by omega)])
  rw [toNat_octet (by omega)] at hsame
  exact h (Char.toNat_inj.mp hsame ▸ hd)

theorem getLast?_encode_ne {c : Char} (hc : c.toNat < 0x80) {cs : List Char} (h : cs.getLast? ≠ some c) :
    (encode cs).getLast? ≠ some (octet c.toNat) := by
  cases cs using List.reverseRecOn with
  | nil => nofun
  | append_singleton init last =>
    obtain ⟨b, hb⟩ := Option.ne_none_iff_exists'.mp (List.getLast?_eq_none_iff.not.mpr (encodeChar_ne_nil last))
    rw [encode_append, List.getLast?_append]
    rw [List.getLast?_concat] at h
    have hlast : (encode [last]).getLast? = some b := by rw [encode, List.flatMap_singleton, hb]
    rw [hlast, Option.some_or]
    rintro ⟨rfl⟩
    have hsame := toNat_of_mem_encodeChar (List.mem_of_getLast? hb) (by rwa [toNat_octet (by omega)])
    rw [toNat_octet (by omega)] at hsame
    exact h (congrArg some (Char.toNat_inj.mp hsame))

theorem decodeLossy_encode (cs : List Char) : decodeLossy (encode cs) = cs := by
  rw [decodeLossy, scan_encode, List.map_map]
  exact List.map_id' cs

end Utf8

/-! ## Terminal sequences -/

namespace Line

/-- A terminal sequence: an opening bracket behind an escape, parameters, and a letter. -/
def sequence (params : List Char) (letter : Char) : List Char := '\x1b' :: '[' :: (params ++ [letter])

/-- A text into which terminal sequences have been put, anywhere and in any number. -/
inductive IsColoured : List Char → List Char → Prop
  | nil : IsColoured [] []
  | char (c : Char) {l cs : List Char} (h : IsColoured l cs) : IsColoured (c :: l) (c :: cs)
  | sequence {params : List Char} {letter : Char} {l cs : List Char}
      (hparams : ∀ c ∈ params, isParameter c = true) (hletter : letter.isAlpha = true) (h : IsColoured l cs) :
      IsColoured l (sequence params letter ++ cs)

theorem isColoured_self (l : List Char) : IsColoured l l := by
  induction l with
  | nil => exact .nil
  | cons c l ih => exact .char c ih

theorem IsColoured.append {l l' cs cs' : List Char} (h : IsColoured l cs) (h' : IsColoured l' cs') :
    IsColoured (l ++ l') (cs ++ cs') := by
  induction h with
  | nil => exact h'
  | char c h ih => exact .char c ih
  | sequence hparams hletter h ih =>
    rw [List.append_assoc]
    exact .sequence hparams hletter ih

theorem isAlpha_iff {c : Char} :
    c.isAlpha = true ↔ (65 ≤ c.toNat ∧ c.toNat ≤ 90) ∨ (97 ≤ c.toNat ∧ c.toNat ≤ 122) := by
  have hupper : c.isUpper = true ↔ 65 ≤ c.toNat ∧ c.toNat ≤ 90 :=
    decide_eq_true_iff.trans (and_congr UInt32.le_iff_toNat_le UInt32.le_iff_toNat_le)
  have hlower : c.isLower = true ↔ 97 ≤ c.toNat ∧ c.toNat ≤ 122 :=
    Bool.and_eq_true_iff.trans (and_congr (decide_eq_true_iff.trans UInt32.le_iff_toNat_le)
      (decide_eq_true_iff.trans UInt32.le_iff_toNat_le))
  show (c.isUpper || c.isLower) = true ↔ _
  rw [Bool.or_eq_true, hupper, hlower]

theorem isParameter_of_isAlpha {c : Char} (h : c.isAlpha = true) : isParameter c = false := by
  have hcode := isAlpha_iff.mp h
  rw [Bool.eq_false_iff]
  intro hparameter
  simp only [isParameter, Bool.or_eq_true, beq_iff_eq] at hparameter
  rcases hparameter with (hdigit | rfl) | rfl
  · have hdigits := Text.isDigit_iff.mp hdigit
    omega
  · exact absurd h (by decide)
  · exact absurd h (by decide)

theorem dropEscape?_sequence {params : List Char} {letter : Char} (hparams : ∀ c ∈ params, isParameter c = true)
    (hletter : letter.isAlpha = true) (cs : List Char) :
    dropEscape? (sequence params letter ++ cs) = some cs := by
  have hstop : (params ++ letter :: cs).dropWhile isParameter = letter :: cs := by
    rw [List.dropWhile_append_of_pos hparams, List.dropWhile_cons_of_neg]
    rw [isParameter_of_isAlpha hletter]
    decide
  rw [sequence, List.cons_append, List.cons_append, List.append_assoc, List.singleton_append, dropEscape?, hstop]
  simp only [hletter, if_true]

theorem dropEscapes_of_some {cs rest : List Char} (h : dropEscape? cs = some rest) :
    dropEscapes cs = dropEscapes rest := by
  rw [dropEscapes]
  split
  · next hsome => rw [h] at hsome; cases hsome; rfl
  · next hnone => rw [h] at hnone; cases hnone

theorem dropEscapes_cons {c : Char} (hc : c ≠ '\x1b') (cs : List Char) :
    dropEscapes (c :: cs) = c :: dropEscapes cs := by
  have hnone : dropEscape? (c :: cs) = none := by
    unfold dropEscape?
    split
    · next h => exact absurd (List.cons.inj h).1 hc
    · rfl
  rw [dropEscapes]
  split
  · next hsome => rw [hnone] at hsome; cases hsome
  · rfl

/-- **What has been put in is removed, and nothing else.** -/
theorem dropEscapes_of_isColoured {l cs : List Char} (h : IsColoured l cs) (hl : '\x1b' ∉ l) :
    dropEscapes cs = l := by
  induction h with
  | nil => rw [dropEscapes]; rfl
  | char c h ih =>
    rw [List.mem_cons, not_or] at hl
    rw [dropEscapes_cons (Ne.symm hl.1), ih hl.2]
  | sequence hparams hletter h ih => rw [dropEscapes_of_some (dropEscape?_sequence hparams hletter _), ih hl]

/-! ## Line endings -/

/-- A line that needs no cleaning. -/
structure IsPlain (l : Line) : Prop where
  escape : '\x1b' ∉ l
  newline : '\n' ∉ l
  ending : l.getLast? ≠ some '\r'

theorem not_mem_sequence {params : List Char} {letter c : Char} (hparams : ∀ c ∈ params, isParameter c = true)
    (hletter : letter.isAlpha = true) (hc : c.toNat < 0x1b) : c ∉ sequence params letter := by
  rw [sequence, List.mem_cons, List.mem_cons, List.mem_append, List.mem_singleton]
  rintro (rfl | rfl | hmem | rfl)
  · exact absurd hc (by decide)
  · exact absurd hc (by decide)
  · have hparameter := hparams c hmem
    simp only [isParameter, Bool.or_eq_true, beq_iff_eq] at hparameter
    rcases hparameter with (hdigit | rfl) | rfl
    · have hdigits := Text.isDigit_iff.mp hdigit
      omega
    · exact absurd hc (by decide)
    · exact absurd hc (by decide)
  · have hcode := isAlpha_iff.mp hletter
    omega

theorem mem_of_isColoured {l cs : List Char} (h : IsColoured l cs) {c : Char} (hc : c.toNat < 0x1b) (hmem : c ∈ cs) :
    c ∈ l := by
  induction h with
  | nil => exact hmem
  | char d h ih =>
    rcases List.mem_cons.mp hmem with rfl | hmem
    · exact List.mem_cons_self
    · exact List.mem_cons_of_mem d (ih hmem)
  | sequence hparams hletter h ih =>
    rcases List.mem_append.mp hmem with hmem | hmem
    · exact absurd hmem (not_mem_sequence hparams hletter hc)
    · exact ih hmem

theorem getLast?_of_isColoured {l cs : List Char} (h : IsColoured l cs) {c : Char} (hc : c.toNat < 0x1b)
    (hlast : cs.getLast? = some c) : l.getLast? = some c := by
  induction h with
  | nil => exact hlast
  | @char d l cs h ih =>
    cases hcs : cs.getLast? with
    | none =>
      -- the last character of all is the last of the text
      rw [List.getLast?_eq_none_iff] at hcs
      subst hcs
      cases h
      exact hlast
    | some e =>
      rw [List.getLast?_cons, hcs] at hlast
      rw [List.getLast?_cons, ih (hcs.trans hlast)]
      rfl
  | @sequence params letter l cs hparams hletter h ih =>
    rw [List.getLast?_append] at hlast
    cases hcs : cs.getLast? with
    | none =>
      rw [hcs, Option.none_or] at hlast
      exact absurd (List.mem_of_getLast? hlast) (not_mem_sequence hparams hletter hc)
    | some e =>
      rw [hcs, Option.some_or] at hlast
      exact ih (hcs.trans hlast)

theorem dropCarriageReturn_concat (bs : Bytes) : dropCarriageReturn (bs ++ [13]) = bs := by
  simp [dropCarriageReturn]

theorem dropCarriageReturn_of_ne {bs : Bytes} (h : bs.getLast? ≠ some 13) : dropCarriageReturn bs = bs := by
  unfold dropCarriageReturn
  split
  · next r hr =>
    rw [← List.head?_reverse, hr] at h
    exact absurd rfl h
  · rfl

/-- The octets that end a line before its newline. -/
def ending (crlf : Bool) : Bytes := if crlf then [13] else []

/-- **A decorated line is read as the line that it stands for.** -/
theorem ofBytes_of_isColoured {l cs : List Char} (hl : IsPlain l) (h : IsColoured l cs) (crlf : Bool) :
    ofBytes (Utf8.encode cs ++ ending crlf) = l := by
  have hdrop : dropCarriageReturn (Utf8.encode cs ++ ending crlf) = Utf8.encode cs := by
    cases crlf with
    | true => exact dropCarriageReturn_concat _
    | false =>
      rw [ending, if_neg Bool.false_ne_true, List.append_nil]
      exact dropCarriageReturn_of_ne
        (Utf8.getLast?_encode_ne (c := '\r') (by decide) fun hlast =>
          hl.ending (getLast?_of_isColoured h (by decide) hlast))
  rw [ofBytes, hdrop, Utf8.decodeLossy_encode, dropEscapes_of_isColoured h hl.escape]

end Line

namespace Output

/-! ## Decorated lines -/

/-- The octets of lines as they are. -/
def plain (ls : List Line) : Bytes := ls.flatMap fun l => Utf8.encode l ++ [newline]

/-- The octets of lines that are coloured, each with a line ending of either kind. -/
inductive IsDecorated : List Line → Bytes → Prop
  | nil : IsDecorated [] []
  | cons {l : Line} {cs : List Char} {ls : List Line} {bs : Bytes} (crlf : Bool) (hl : Line.IsColoured l cs)
      (h : IsDecorated ls bs) : IsDecorated (l :: ls) ((Utf8.encode cs ++ Line.ending crlf) ++ newline :: bs)

theorem isDecorated_plain (ls : List Line) : IsDecorated ls (plain ls) := by
  induction ls with
  | nil => exact .nil
  | cons l ls ih =>
    have h := IsDecorated.cons false (Line.isColoured_self l) ih
    simpa [plain, Line.ending] using h

/-- Decorated lines are read as the lines that they stand for, and nothing is left over. -/
theorem completed_of_isDecorated {ls : List Line} {bs : Bytes} (h : IsDecorated ls bs)
    (hls : ∀ l ∈ ls, Line.IsPlain l) : (completed bs).map Line.ofBytes = ls ∧ unfinished bs = [] := by
  induction h with
  | nil => exact ⟨rfl, rfl⟩
  | @cons l cs ls bs crlf hl h ih =>
    obtain ⟨hlines, hrest⟩ := ih fun k hk => hls k (List.mem_cons_of_mem l hk)
    have hplain := hls l List.mem_cons_self
    have hnewline : newline ∉ Utf8.encode cs ++ Line.ending crlf := by
      rw [List.mem_append, not_or]
      refine ⟨Utf8.octet_not_mem_encode (c := '\n') (by decide) fun hmem => ?_, by cases crlf <;> decide⟩
      exact hplain.newline (Line.mem_of_isColoured hl (by decide) hmem)
    have hpieces := List.splitOn_append_cons_self (a := newline) (Utf8.encode cs ++ Line.ending crlf) bs
    rw [List.splitOn_eq_singleton hnewline, List.singleton_append] at hpieces
    obtain ⟨p, ps, hp⟩ := List.exists_cons_of_ne_nil (List.splitOn_ne_nil newline bs)
    refine ⟨?_, ?_⟩
    · rw [completed, hpieces, List.dropLast_cons_of_ne_nil (List.splitOn_ne_nil _ _), List.map_cons,
        Line.ofBytes_of_isColoured hplain hl]
      exact congrArg _ hlines
    · rw [unfinished, hpieces, hp, List.getLast?_cons_cons, ← hp]
      exact hrest

/-! ## Feeding -/

theorem tail_feed (o : Output) (p : Pipe) (bs : Bytes) : (o.feed p bs).1.tail p = unfinished (o.tail p ++ bs) := by
  cases p <;> rfl

theorem setTail_self {o : Output} {p : Pipe} {bs : Bytes} (h : o.tail p = bs) : o.setTail p bs = o := by
  subst h
  cases p <;> rfl

theorem feed_append (o : Output) (p : Pipe) (a b : Bytes) :
    o.feed p (a ++ b) = (((o.feed p a).1.feed p b).1, (o.feed p a).2 ++ ((o.feed p a).1.feed p b).2) := by
  have htail : (o.feed p a).1.tail p = unfinished (o.tail p ++ a) := tail_feed o p a
  have hlines : completed (o.tail p ++ (a ++ b)) =
      completed (o.tail p ++ a) ++ completed ((o.feed p a).1.tail p ++ b) := by
    rw [htail, ← completed_append, List.append_assoc]
  have hrest : unfinished (o.tail p ++ (a ++ b)) = unfinished ((o.feed p a).1.tail p ++ b) := by
    rw [htail, ← unfinished_append, List.append_assoc]
  rw [feed, hlines, hrest, List.map_append, Cycle.run_append]
  cases p <;> rfl

/-- Octets may come in any chunks. -/
theorem feedAll_map {o : Output} {p : Pipe} (hp : o.tail p = []) (chunks : List Bytes) :
    o.feedAll (chunks.map (p, ·)) = o.feed p chunks.flatten := by
  induction chunks using List.reverseRecOn with
  | nil =>
    have hself : o.setTail p (unfinished ([] ++ [])) = o := setTail_self hp
    rw [List.flatten_nil, feed, hp, hself]
    rfl
  | append_singleton chunks bs ih =>
    rw [List.map_append, feedAll_append, ih, List.flatten_append, List.flatten_singleton, feed_append]
    simp only [List.map_singleton, feedAll, List.append_nil]

theorem feed_of_isDecorated {o : Output} {p : Pipe} (hp : o.tail p = []) {ls : List Line} {bs : Bytes}
    (h : IsDecorated ls bs) (hls : ∀ l ∈ ls, Line.IsPlain l) :
    o.feed p bs = ({ o with cycle := (o.cycle.run ls).1 }, (o.cycle.run ls).2) := by
  obtain ⟨hlines, hrest⟩ := completed_of_isDecorated h hls
  rw [feed, hp, List.nil_append, hlines, hrest, setTail_self hp]

/-- **Decorated lines cause the events of the plain ones**, in whatever chunks they come, and leave the same
state. -/
theorem feedAll_of_isDecorated {o : Output} {p : Pipe} (hp : o.tail p = []) {ls : List Line}
    (hls : ∀ l ∈ ls, Line.IsPlain l) {chunks : List Bytes} (h : IsDecorated ls chunks.flatten) :
    o.feedAll (chunks.map (p, ·)) = o.feed p (plain ls) ∧
      (o.feedAll (chunks.map (p, ·))).2 = (o.cycle.run ls).2 := by
  rw [feedAll_map hp, feed_of_isDecorated hp h hls, feed_of_isDecorated hp (isDecorated_plain ls) hls]
  exact ⟨rfl, rfl⟩

/-- A count whose digits are apart, between two terminal sequences and a cut in the second one. -/
theorem feedAll_of_isDecorated_digits :
    let colour := Line.sequence "1;31".toList 'm'
    let plainColour := Line.sequence [] 'K'
    let before : Line := "found 1".toList
    let behind : Line := "0 errors and 2 warnings".toList
    let ls : List Line := [before ++ behind]
    let bs := Utf8.encode (before ++ (colour ++ (plainColour ++ behind))) ++ [13] ++ [newline]
    let chunks := [bs.take 15, bs.drop 15]
    ((∀ l ∈ ls, Line.IsPlain l) ∧ IsDecorated ls chunks.flatten) ∧
      (feedAll {} (chunks.map (.out, ·))).2 = [.finished ⟨"found 10 errors and 2 warnings", 10, 2⟩] := by
  intro colour plainColour before behind ls bs chunks
  have hls : ∀ l ∈ ls, Line.IsPlain l := fun l hl => by
    rw [List.mem_singleton.mp hl]
    exact ⟨by decide, by decide, by decide⟩
  have hcoloured : Line.IsColoured (before ++ behind) (before ++ (colour ++ (plainColour ++ behind))) :=
    (Line.isColoured_self before).append
      (.sequence (List.all_eq_true.mp rfl) rfl (.sequence (List.all_eq_true.mp rfl) rfl (Line.isColoured_self behind)))
  have hdecorated : IsDecorated ls bs := .cons true hcoloured .nil
  have hwhole : chunks.flatten = bs := by simp [chunks, List.take_append_drop]
  rw [← hwhole] at hdecorated
  refine ⟨⟨hls, hdecorated⟩, (feedAll_of_isDecorated (o := {}) rfl hls hdecorated).2.trans ?_⟩
  decide +kernel

end Output

end WarmCheck

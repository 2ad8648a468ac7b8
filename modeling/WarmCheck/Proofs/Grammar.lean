import WarmCheck.Proofs.Decimal
import WarmCheck.Proofs.Phrases

/-!
# The grammar of lines

What a line means is told by the phrases that stand in it. The first summary in a line wins, whatever has begun to
look like one before it, and its counts are never wrapped around.

* `Line.IsFirstSummary`: the first summary that stands in a line; `Line.summary?_eq_some_iff`: it is found.
* `Line.CountsAs`: the count that digits stand for; `Line.countsAs_countOf`: it is read.
* `Line.IsSeparator`: a rule of equals signs between blanks.
* `Line.IsOfKind`: the grammar of lines, with one rule for each kind.
* **`Line.kind_eq_iff_isOfKind`**: lines are classified by this grammar.
-/

namespace WarmCheck

/-! ## Trimming -/

namespace Text

theorem trimEnd_append_blanks (cs : List Char) {blanks : List Char} (h : allBlank blanks = true) :
    trimEnd (cs ++ blanks) = trimEnd cs := by
  rw [trimEnd, List.reverse_append, List.dropWhile_append_of_pos, trimEnd]
  exact fun c hc => List.all_eq_true.mp h c (List.mem_reverse.mp hc)

theorem trimEnd_eq_self {cs : List Char} (h : ∀ c ∈ cs.getLast?, isBlank c = false) : trimEnd cs = cs := by
  cases cs using List.reverseRecOn with
  | nil => rfl
  | append_singleton init last =>
    have hlast : isBlank last = false := h last (by rw [List.getLast?_concat]; rfl)
    rw [trimEnd, List.reverse_concat, List.dropWhile_cons_of_neg (by rw [hlast]; exact Bool.false_ne_true),
      ← List.reverse_concat, List.reverse_reverse]

/-- A text is what is left of it when it is trimmed, between blanks. -/
theorem exists_trim (cs : List Char) :
    ∃ before after, allBlank before = true ∧ allBlank after = true ∧ cs = before ++ (trim cs ++ after) := by
  obtain ⟨after, hafter, hsplit⟩ := exists_trimEnd (trimStart cs)
  refine ⟨cs.takeWhile isBlank, after, List.all_takeWhile, hafter, ?_⟩
  rw [trim, ← hsplit, trimStart, List.takeWhile_append_dropWhile]

/-- What does not begin or end in a blank is what is left between blanks. -/
theorem trim_eq_of_blanks {before cs after : List Char} (hbefore : allBlank before = true)
    (hafter : allBlank after = true) (hne : cs ≠ []) (hhead : ∀ c ∈ cs.head?, isBlank c = false)
    (hlast : ∀ c ∈ cs.getLast?, isBlank c = false) : trim (before ++ (cs ++ after)) = cs := by
  have hstart : trimStart (before ++ (cs ++ after)) = cs ++ after := by
    rw [trimStart, List.dropWhile_append_of_pos (List.all_eq_true.mp hbefore)]
    cases cs with
    | nil => exact absurd rfl hne
    | cons c cs =>
      have hc : isBlank c = false := hhead c rfl
      rw [List.cons_append, List.dropWhile_cons_of_neg (by rw [hc]; exact Bool.false_ne_true)]
  rw [trim, hstart, trimEnd_append_blanks cs hafter, trimEnd_eq_self hlast]

end Text

namespace Line

/-! ## The first summary -/

/-- A summary with these digits stands in a line, behind other characters. -/
def Holds (l : Line) (before errors warnings : List Char) : Prop :=
  IsDigits errors ∧ IsDigits warnings ∧ ∃ plural rest, l = before ++ (summaryOf errors plural warnings ++ rest)

/-- The first summary that stands in a line has these digits. -/
def IsFirstSummary (l : Line) (errors warnings : List Char) : Prop :=
  ∃ before, l.Holds before errors warnings ∧
    ∀ before' errors' warnings', l.Holds before' errors' warnings' → before.length ≤ before'.length

/-- A summary stands in a line. -/
def HasSummary (l : Line) : Prop := ∃ before errors warnings, l.Holds before errors warnings

theorem holds_nil_iff {l : Line} {errors warnings : List Char} :
    l.Holds [] errors warnings ↔ summaryAt? l = some (errors, warnings) := by
  rw [summaryAt?_eq_some_iff]
  rfl

theorem holds_cons_iff {c : Char} {l : Line} {b : Char} {before errors warnings : List Char} :
    Holds (c :: l) (b :: before) errors warnings ↔ c = b ∧ l.Holds before errors warnings := by
  simp only [Holds, List.cons_append, List.cons.injEq, exists_and_left]
  tauto

theorem not_holds_of_nil {before errors warnings : List Char} : ¬Holds [] before errors warnings := by
  rintro ⟨-, -, plural, rest, h⟩
  have hlength := congrArg List.length h
  simp [summaryOf] at hlength

/-- **The first summary is found**, and nothing else. -/
theorem summary?_eq_some_iff {l : Line} {errors warnings : List Char} :
    summary? l = some (errors, warnings) ↔ l.IsFirstSummary errors warnings := by
  induction l with
  | nil =>
    refine ⟨fun h => (by cases h), ?_⟩
    rintro ⟨before, hholds, -⟩
    exact absurd hholds not_holds_of_nil
  | cons c l ih =>
    rw [summary?]
    cases hat : summaryAt? (c :: l) with
    | some x =>
      obtain ⟨ds, es⟩ := x
      have hhere : Holds (c :: l) [] ds es := holds_nil_iff.mpr hat
      show some (ds, es) = some (errors, warnings) ↔ _
      rw [Option.some.injEq, Prod.mk.injEq]
      constructor
      · rintro ⟨rfl, rfl⟩
        exact ⟨[], hhere, fun _ _ _ _ => Nat.zero_le _⟩
      · -- no summary stands before the first character
        rintro ⟨before, hholds, hfirst⟩
        obtain rfl : before = [] := List.eq_nil_of_length_eq_zero (Nat.le_zero.mp (hfirst [] ds es hhere))
        rw [holds_nil_iff, hat, Option.some.injEq, Prod.mk.injEq] at hholds
        exact hholds
    | none =>
      show summary? l = some (errors, warnings) ↔ _
      rw [ih]
      have hnone : ∀ errors' warnings', ¬Holds (c :: l) [] errors' warnings' := fun errors' warnings' h => by
        rw [holds_nil_iff, hat] at h
        cases h
      constructor
      · rintro ⟨before, hholds, hfirst⟩
        refine ⟨c :: before, holds_cons_iff.mpr ⟨rfl, hholds⟩, fun before' errors' warnings' hother => ?_⟩
        cases before' with
        | nil => exact absurd hother (hnone _ _)
        | cons b before' => exact Nat.succ_le_succ (hfirst _ _ _ (holds_cons_iff.mp hother).2)
      · rintro ⟨before, hholds, hfirst⟩
        cases before with
        | nil => exact absurd hholds (hnone _ _)
        | cons b before =>
          obtain ⟨rfl, hrest⟩ := holds_cons_iff.mp hholds
          exact ⟨before, hrest, fun before' errors' warnings' hother =>
            Nat.le_of_succ_le_succ (hfirst (c :: before') _ _ (holds_cons_iff.mpr ⟨rfl, hother⟩))⟩

/-- Where there is a summary, there is a first one. -/
theorem HasSummary.exists_first {l : Line} (h : l.HasSummary) :
    ∃ errors warnings, l.IsFirstSummary errors warnings := by
  classical
  have hlength : ∃ n before errors warnings, l.Holds before errors warnings ∧ before.length = n := by
    obtain ⟨before, errors, warnings, hholds⟩ := h
    exact ⟨before.length, before, errors, warnings, hholds, rfl⟩
  obtain ⟨before, errors, warnings, hholds, hfirst⟩ := Nat.find_spec hlength
  refine ⟨errors, warnings, before, hholds, fun before' errors' warnings' hother => ?_⟩
  rw [hfirst]
  exact Nat.find_min' hlength ⟨before', errors', warnings', hother, rfl⟩

theorem summary?_eq_none_iff {l : Line} : summary? l = none ↔ ¬l.HasSummary := by
  constructor
  · intro hnone hsummary
    obtain ⟨errors, warnings, hfirst⟩ := hsummary.exists_first
    rw [summary?_eq_some_iff.mpr hfirst] at hnone
    cases hnone
  · intro hnot
    rw [Option.eq_none_iff_forall_ne_some]
    rintro ⟨errors, warnings⟩ hsome
    obtain ⟨before, hholds, -⟩ := summary?_eq_some_iff.mp hsome
    exact hnot ⟨before, errors, warnings, hholds⟩

/-! ## Counts -/

/-- The value of digits in base ten. -/
def valueOf (ds : List Char) : Nat := Nat.ofDigits 10 (ds.reverse.map Text.digitValue)

/-- The count that digits stand for: their value, if they are ASCII digits and the value is less than two to the
power of 32, and the largest number below that if not. -/
structure CountsAs (ds : List Char) (n : Nat) : Prop where
  eq_value : (∀ d ∈ ds, d.isDigit = true) → valueOf ds < 4294967296 → n = valueOf ds
  eq_max : (∃ d ∈ ds, d.isDigit = false) ∨ 4294967296 ≤ valueOf ds → n = 4294967295

theorem countsAs_countOf (ds : List Char) : CountsAs ds (countOf ds) := by
  rw [countOf]
  split
  · next h =>
    obtain ⟨hdigits, hsmall⟩ := h
    rw [Text.decimalValue_eq_ofDigits] at hsmall ⊢
    refine ⟨fun _ _ => rfl, ?_⟩
    rintro (⟨d, hd, hnot⟩ | hlarge)
    · rw [List.all_eq_true.mp hdigits d hd] at hnot
      cases hnot
    · exact absurd (Nat.lt_succ_of_le hsmall) (Nat.not_lt.mpr hlarge)
  · next h =>
    rw [Text.decimalValue_eq_ofDigits] at h
    exact ⟨fun hdigits hsmall => absurd ⟨List.all_eq_true.mpr hdigits, Nat.le_of_lt_succ hsmall⟩ h, fun _ => rfl⟩

theorem CountsAs.unique {ds : List Char} {n m : Nat} (hn : CountsAs ds n) (hm : CountsAs ds m) : n = m := by
  by_cases h : (∀ d ∈ ds, d.isDigit = true) ∧ valueOf ds < 4294967296
  · rw [hn.eq_value h.1 h.2, hm.eq_value h.1 h.2]
  · have hmax : (∃ d ∈ ds, d.isDigit = false) ∨ 4294967296 ≤ valueOf ds := by
      by_contra hnot
      simp only [not_or, not_exists, not_and, Bool.not_eq_false, Nat.not_le] at hnot
      exact h hnot
    rw [hn.eq_max hmax, hm.eq_max hmax]

/-! ## Rules -/

/-- A line of at least three equals signs and nothing else, but for blanks around them. -/
def IsSeparator (l : Line) : Prop :=
  ∃ before n after, Text.allBlank before = true ∧ Text.allBlank after = true ∧ 3 ≤ n ∧
    l = before ++ (List.replicate n '=' ++ after)

theorem isRule_iff {cs : List Char} : isRule cs = true ↔ ∃ n, 3 ≤ n ∧ cs = List.replicate n '=' := by
  simp only [isRule, Bool.and_eq_true, decide_eq_true_eq, List.all_eq_true, beq_iff_eq]
  constructor
  · rintro ⟨hlength, hall⟩
    exact ⟨cs.length, hlength, List.eq_replicate_of_mem hall⟩
  · rintro ⟨n, hn, rfl⟩
    exact ⟨by rwa [List.length_replicate], fun c hc => List.eq_of_mem_replicate hc⟩

theorem isRule_trim_iff {l : Line} : isRule (Text.trim l) = true ↔ l.IsSeparator := by
  rw [isRule_iff]
  constructor
  · rintro ⟨n, hn, htrim⟩
    obtain ⟨before, after, hbefore, hafter, hl⟩ := Text.exists_trim l
    rw [htrim] at hl
    exact ⟨before, n, after, hbefore, hafter, hn, hl⟩
  · rintro ⟨before, n, after, hbefore, hafter, hn, rfl⟩
    have hequals : ∀ c ∈ List.replicate n '=', Text.isBlank c = false := fun c hc => by
      rw [List.eq_of_mem_replicate hc]
      decide
    refine ⟨n, hn, Text.trim_eq_of_blanks hbefore hafter ?_ (fun c hc => hequals c (List.mem_of_head? hc))
      fun c hc => hequals c (List.mem_of_getLast? hc)⟩
    exact List.ne_nil_of_length_pos (by rw [List.length_replicate]; omega)

/-! ## Phrases -/

theorem any_occursIn_iff {l : Line} : startPhrases.any (Text.occursIn · l) = true ↔ ∃ w ∈ startPhrases, w <:+: l := by
  simp only [List.any_eq_true, Text.occursIn_iff]

/-! ## Kinds -/

/-- The grammar of lines. -/
inductive IsOfKind (l : Line) : Kind → Prop
  | summary {ds es : List Char} {errors warnings : Nat} (h : l.IsFirstSummary ds es)
      (herrors : CountsAs ds errors) (hwarnings : CountsAs es warnings) : IsOfKind l (.summary errors warnings)
  | started (hsummary : ¬l.HasSummary) (h : ∃ w ∈ startPhrases, w <:+: l) : IsOfKind l .started
  | footer (hsummary : ¬l.HasSummary) (hstart : ∀ w ∈ startPhrases, ¬w <:+: l) (h : watchingPhrase <:+: l) :
      IsOfKind l .footer
  | separator (hsummary : ¬l.HasSummary) (hstart : ∀ w ∈ startPhrases, ¬w <:+: l) (hwatching : ¬watchingPhrase <:+: l)
      (h : l.IsSeparator) : IsOfKind l .separator
  | text (hsummary : ¬l.HasSummary) (hstart : ∀ w ∈ startPhrases, ¬w <:+: l) (hwatching : ¬watchingPhrase <:+: l)
      (h : ¬l.IsSeparator) : IsOfKind l .text

theorem isOfKind_kind (l : Line) : l.IsOfKind l.kind := by
  rw [kind]
  cases hsummary : summary? l with
  | some x => exact .summary (summary?_eq_some_iff.mp hsummary) (countsAs_countOf _) (countsAs_countOf _)
  | none =>
    have hnone := summary?_eq_none_iff.mp hsummary
    simp only [any_occursIn_iff, Text.occursIn_iff]
    split
    · next hstart => exact .started hnone hstart
    · next hstart =>
      have hstart : ∀ w ∈ startPhrases, ¬w <:+: l := fun w hw hin => hstart ⟨w, hw, hin⟩
      split
      · next hwatching => exact .footer hnone hstart hwatching
      · next hwatching =>
        split
        · next hrule => exact .separator hnone hstart hwatching (isRule_trim_iff.mp hrule)
        · next hrule => exact .text hnone hstart hwatching fun h => hrule (isRule_trim_iff.mpr h)

theorem kind_of_isOfKind {l : Line} {k : Kind} (h : l.IsOfKind k) : l.kind = k := by
  have hany : (∀ w ∈ startPhrases, ¬w <:+: l) → ¬∃ w ∈ startPhrases, w <:+: l :=
    fun hstart ⟨w, hw, hin⟩ => hstart w hw hin
  rw [kind]
  cases h with
  | summary h herrors hwarnings =>
    rw [summary?_eq_some_iff.mpr h]
    rw [herrors.unique (countsAs_countOf _), hwarnings.unique (countsAs_countOf _)]
  | started hsummary h =>
    rw [summary?_eq_none_iff.mpr hsummary]
    simp only [any_occursIn_iff, h, if_true]
  | footer hsummary hstart h =>
    rw [summary?_eq_none_iff.mpr hsummary]
    simp only [any_occursIn_iff, hany hstart, Text.occursIn_iff, h, if_true, if_false]
  | separator hsummary hstart hwatching h =>
    rw [summary?_eq_none_iff.mpr hsummary]
    simp only [any_occursIn_iff, hany hstart, Text.occursIn_iff, hwatching, isRule_trim_iff, h, if_true, if_false]
  | text hsummary hstart hwatching h =>
    rw [summary?_eq_none_iff.mpr hsummary]
    simp only [any_occursIn_iff, hany hstart, Text.occursIn_iff, hwatching, isRule_trim_iff, h, if_false]

/-- **Lines are classified by the grammar**: a line has a kind iff the rule for this kind says so. And of the counts
that a summary reports, one is zero only if all its digits are ASCII zeros. -/
theorem kind_eq_iff_isOfKind (l : Line) :
    (∀ k, l.kind = k ↔ l.IsOfKind k) ∧
      ∀ errors warnings, l.kind = .summary errors warnings → ∃ ds es, l.IsFirstSummary ds es ∧
        (errors = 0 ↔ ∀ d ∈ ds, d = '0') ∧ (warnings = 0 ↔ ∀ d ∈ es, d = '0') := by
  refine ⟨fun k => ⟨fun h => h ▸ l.isOfKind_kind, kind_of_isOfKind⟩, fun errors warnings h => ?_⟩
  obtain ⟨ds, es, hfound, rfl, rfl⟩ := kind_eq_summary_iff.mp h
  exact ⟨ds, es, summary?_eq_some_iff.mp hfound, countOf_eq_zero_iff ds, countOf_eq_zero_iff es⟩

/-- False starts in front of a summary and inside it, a count that is too large, and zeros. -/
theorem kind_eq_iff_isOfKind_false_starts :
    let l : Line :=
      "found 1 found 2 errors and x found 4294967296 error and 000 warnings, found 7 errors and 7 warnings".toList
    l.kind = .summary 4294967295 0 ∧ ∃ ds es, l.IsFirstSummary ds es ∧
      (4294967295 = 0 ↔ ∀ d ∈ ds, d = '0') ∧ (0 = 0 ↔ ∀ d ∈ es, d = '0') := by
  intro l
  have hkind : l.kind = .summary 4294967295 0 := by decide +kernel
  exact ⟨hkind, l.kind_eq_iff_isOfKind.2 4294967295 0 hkind⟩

end Line

end WarmCheck

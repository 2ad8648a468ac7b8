import Mathlib.Data.List.TakeDrop
import WarmCheck.Proofs.Reports

/-!
# The phrase of a summary

The scanner of a summary reads one phrase, `found D errors and D warning`, wherever it stands. As the phrase
does not end in a blank, blanks behind a line neither make a summary nor break one.

* `Line.digits?_eq_some_iff`: what the scanner of a number reads.
* **`Line.summaryAt?_eq_some_iff`**: what the scanner of a summary reads.
* **`Line.kind_trimEnd`**: a summary is one with the same counts when it is trimmed at the end.
-/

namespace WarmCheck

namespace Text

theorem exists_trimEnd (cs : List Char) : ∃ blanks, allBlank blanks = true ∧ cs = trimEnd cs ++ blanks := by
  refine ⟨(cs.reverse.takeWhile isBlank).reverse, ?_, ?_⟩
  · rw [allBlank, List.all_reverse]
    exact List.all_takeWhile
  · rw [trimEnd, ← List.reverse_append, List.takeWhile_append_dropWhile, List.reverse_reverse]

theorem isBlank_getLast_trimEnd {cs : List Char} {c : Char} (h : (trimEnd cs).getLast? = some c) :
    isBlank c = false := by
  rw [trimEnd, List.getLast?_reverse] at h
  have hnot := List.head?_dropWhile_not isBlank cs.reverse
  rw [h] at hnot
  exact hnot

end Text

namespace Line

/-! ## Runs of digits -/

/-- One decimal digit or more, and nothing else. -/
structure IsDigits (ds : List Char) : Prop where
  ne_nil : ds ≠ []
  all : ∀ d ∈ ds, Text.isDecimalDigit d = true

theorem digits?_eq_some_iff {cs ds rest : List Char} :
    digits? cs = some (ds, rest) ↔
      IsDigits ds ∧ cs = ds ++ rest ∧ ∀ c ∈ rest.head?, Text.isDecimalDigit c = false := by
  constructor
  · intro h
    rw [digits?] at h
    split at h
    · cases h
    · next hne =>
      cases h
      refine ⟨⟨hne, fun d hd => List.mem_takeWhile_imp hd⟩, (List.takeWhile_append_dropWhile).symm, ?_⟩
      intro c hc
      have hnot := List.head?_dropWhile_not Text.isDecimalDigit cs
      rw [Option.mem_def.mp hc] at hnot
      exact hnot
  · rintro ⟨⟨hne, hall⟩, rfl, hrest⟩
    have htake : (ds ++ rest).takeWhile Text.isDecimalDigit = ds := by
      rw [List.takeWhile_append_of_pos hall]
      cases rest with
      | nil => simp
      | cons c rest => simp [hrest c rfl]
    have hdrop : (ds ++ rest).dropWhile Text.isDecimalDigit = rest := by
      rw [List.dropWhile_append_of_pos hall]
      cases rest with
      | nil => rfl
      | cons c rest => simp [hrest c rfl]
    rw [digits?, htake, hdrop]
    cases ds with
    | nil => exact absurd rfl hne
    | cons d ds => rfl

/-! ## The form of a summary -/

/-- A summary with these digits: `found D errors and D warning`, where the plural of the errors is optional. -/
def summaryOf (errors : List Char) (plural : Bool) (warnings : List Char) : List Char :=
  "found ".toList ++ (errors ++ (" error".toList ++ ((if plural then ['s'] else []) ++
    (" and ".toList ++ (warnings ++ " warning".toList)))))

theorem dropPlural_eq_cons_iff {cs rest : List Char} {c : Char} (hc : c ≠ 's') :
    dropPlural cs = c :: rest ↔ ∃ plural : Bool, cs = (if plural then ['s'] else []) ++ c :: rest := by
  constructor
  · intro h
    unfold dropPlural at h
    split at h
    · exact ⟨true, by rw [h]; rfl⟩
    · exact ⟨false, h⟩
  · rintro ⟨plural, rfl⟩
    cases plural with
    | true => rfl
    | false =>
      simp only [Bool.false_eq_true, if_false, List.nil_append]
      unfold dropPlural
      split
      · next h => cases h; exact absurd rfl hc
      · rfl

theorem digits?_append_blank {ds : List Char} (h : IsDigits ds) (rest : List Char) :
    digits? (ds ++ ' ' :: rest) = some (ds, ' ' :: rest) := by
  refine digits?_eq_some_iff.mpr ⟨h, rfl, fun c hc => ?_⟩
  rw [List.head?_cons, Option.mem_def, Option.some.injEq] at hc
  rw [← hc]
  decide

/-- **A text begins with a summary iff it begins with this phrase.** -/
theorem summaryAt?_eq_some_iff {cs ds es : List Char} :
    summaryAt? cs = some (ds, es) ↔
      IsDigits ds ∧ IsDigits es ∧ ∃ plural rest, cs = summaryOf ds plural es ++ rest := by
  have herror : " error".toList = ' ' :: "error".toList := rfl
  have hand : " and ".toList = ' ' :: "and ".toList := rfl
  have hwarning : " warning".toList = ' ' :: "warning".toList := rfl
  constructor
  · intro h
    simp only [summaryAt?, Option.bind_eq_bind, Option.pure_def, Option.bind_eq_some_iff,
      List.isPrefixOf?_eq_some_iff_append_eq, Prod.exists, Option.some.injEq, Prod.mk.injEq] at h
    obtain ⟨a, rfl, ds', b, hds?, c, rfl, d, hd, es', e, hes?, rest, rfl, rfl, rfl⟩ := h
    obtain ⟨hds, rfl, -⟩ := digits?_eq_some_iff.mp hds?
    obtain ⟨hes, rfl, -⟩ := digits?_eq_some_iff.mp hes?
    rw [hand, List.cons_append] at hd
    obtain ⟨plural, rfl⟩ := (dropPlural_eq_cons_iff (by decide)).mp hd.symm
    exact ⟨hds, hes, plural, rest, by simp only [summaryOf, hand, List.append_assoc, List.cons_append]⟩
  · rintro ⟨hds, hes, plural, rest, rfl⟩
    have hplural :
        dropPlural ((if plural then ['s'] else []) ++ (" and ".toList ++ (es ++ (" warning".toList ++ rest)))) =
        " and ".toList ++ (es ++ (" warning".toList ++ rest)) :=
      (dropPlural_eq_cons_iff (by decide)).mpr ⟨plural, rfl⟩
    have herrors := digits?_append_blank hds
      ("error".toList ++ ((if plural then ['s'] else []) ++ (" and ".toList ++ (es ++ (" warning".toList ++ rest)))))
    have hwarnings := digits?_append_blank hes ("warning".toList ++ rest)
    rw [← List.cons_append, ← herror] at herrors
    rw [← List.cons_append, ← hwarning] at hwarnings
    simp only [summaryAt?, summaryOf, List.append_assoc, Text.isPrefixOf?_append, Option.bind_eq_bind,
      Option.pure_def, Option.bind_some, herrors, hplural, hwarnings]

/-! ## Blanks after a summary -/

theorem eq_append_of_append_blanks {cs phrase rest blanks : List Char} {c : Char}
    (hlast : phrase.getLast? = some c) (hc : Text.isBlank c = false) (hblanks : Text.allBlank blanks = true)
    (h : cs ++ blanks = phrase ++ rest) : ∃ rest', cs = phrase ++ rest' := by
  rcases List.append_eq_append_iff.mp h with ⟨tail, rfl, hb⟩ | ⟨tail, rfl, -⟩
  · cases tail using List.reverseRecOn with
    | nil => exact ⟨[], by simp⟩
    | append_singleton tail d =>
      -- the phrase would end in one of the blanks
      rw [← List.append_assoc, List.getLast?_concat, Option.some.injEq] at hlast
      have hd : Text.isBlank d = true := List.all_eq_true.mp hblanks d (by rw [hb]; simp)
      rw [hlast, hc] at hd
      cases hd
  · exact ⟨tail, rfl⟩

theorem getLast?_summaryOf (errors : List Char) (plural : Bool) (warnings : List Char) :
    (summaryOf errors plural warnings).getLast? = some 'g' := by
  have hword : " warning".toList = " warnin".toList ++ ['g'] := rfl
  simp only [summaryOf, hword, ← List.append_assoc]
  exact List.getLast?_concat

theorem summaryAt?_append_blanks (cs : List Char) {blanks : List Char} (h : Text.allBlank blanks = true) :
    summaryAt? (cs ++ blanks) = summaryAt? cs := by
  refine Option.ext fun (ds, es) => ?_
  rw [summaryAt?_eq_some_iff, summaryAt?_eq_some_iff]
  refine and_congr_right fun _ => and_congr_right fun _ => exists_congr fun plural => ?_
  constructor
  · rintro ⟨rest, hrest⟩
    exact eq_append_of_append_blanks (getLast?_summaryOf ds plural es) (by decide) h hrest
  · rintro ⟨rest, rfl⟩
    exact ⟨rest ++ blanks, List.append_assoc ..⟩

theorem summary?_append_blanks (cs : List Char) {blanks : List Char} (h : Text.allBlank blanks = true) :
    summary? (cs ++ blanks) = summary? cs := by
  induction cs with
  | nil =>
    cases hs : summary? blanks with
    | none => exact hs
    | some x => rw [allBlank_of_summary? hs] at h; cases h
  | cons c cs ih =>
    rw [List.cons_append, summary?, summary?, ih, ← List.cons_append, summaryAt?_append_blanks _ h]

theorem kind_trimEnd {l : Line} {errors warnings : Nat} (h : l.kind = .summary errors warnings) :
    Line.kind (Text.trimEnd l) = .summary errors warnings := by
  obtain ⟨blanks, hblanks, hl⟩ := Text.exists_trimEnd l
  rw [kind_eq_summary_iff] at h ⊢
  rwa [hl, summary?_append_blanks _ hblanks] at h

end Line

end WarmCheck

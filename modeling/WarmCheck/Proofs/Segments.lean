import Mathlib.Data.List.Induction
import Mathlib.Data.List.TakeWhile
import WarmCheck.Cycle

/-!
# Segments

Lines are cut after each summary. A segment that ends in a summary is a finished cycle and has a report;
the lines after the last summary are those of the cycle in progress.

* `Cycle.cut`, `Cycle.kept`, `Cycle.report?`: the segments, what a segment keeps, and its report.
* **`Cycle.run_eq`**: a new cycle that is fed lines keeps and reports what their segments say.
* `Cycle.reports`, `Line.lastMarker?`: the reports of lines, and the last line that begins or ends a
  cycle.
-/

namespace WarmCheck

/-! ## Roles of lines -/

namespace Line

/-- Whether a line begins a cycle. -/
def isStart (l : Line) : Bool := l.kind = .started

/-- The counts of a line that ends a cycle. -/
def counts? (l : Line) : Option (Nat × Nat) :=
  match l.kind with
  | .summary errors warnings => some (errors, warnings)
  | _ => none

/-- Whether a line ends a cycle. -/
def isSummary (l : Line) : Bool := l.counts?.isSome

/-- Separators and footers. -/
def isCosmetic (l : Line) : Bool := l.kind = .separator || l.kind = .footer

/-- Text with something in it. -/
def isContent (l : Line) : Bool := l.kind = .text && !Text.allBlank l

/-- Text with nothing in it. -/
def isGap (l : Line) : Bool := l.kind = .text && Text.allBlank l

/-- The last line that begins or ends a cycle. -/
def lastMarker? (ls : List Line) : Option Line :=
  (ls.filter fun l => l.isStart || l.isSummary).getLast?

/-- The summary of a text stands somewhere in it. -/
theorem exists_of_summary? {cs : List Char} {x : List Char × List Char} (h : summary? cs = some x) :
    ∃ before rest, cs = before ++ rest ∧ summaryAt? rest = some x := by
  induction cs with
  | nil => cases h
  | cons c cs ih =>
    rw [summary?] at h
    cases hc : summaryAt? (c :: cs) with
    | some y =>
      rw [hc] at h
      cases h
      exact ⟨[], c :: cs, rfl, hc⟩
    | none =>
      rw [hc] at h
      obtain ⟨before, rest, rfl, hrest⟩ := ih h
      exact ⟨c :: before, rest, rfl, hrest⟩

theorem kind_eq_summary_iff {l : Line} {errors warnings : Nat} :
    l.kind = .summary errors warnings ↔
      ∃ ds es, summary? l = some (ds, es) ∧ countOf ds = errors ∧ countOf es = warnings := by
  rw [kind]
  cases h : summary? l with
  | some x => obtain ⟨ds, es⟩ := x; simp
  | none =>
    simp only [reduceCtorEq, false_and, exists_false, iff_false]
    split_ifs <;> nofun

end Line

/-- The report of a cycle that has finished. -/
def CycleEvent.report? : CycleEvent → Option Report
  | started => none
  | finished r => some r

namespace Cycle

/-! ## The reference -/

/-- The segments that end in a summary, and the lines after the last of them. -/
def cut : List Line → List (List Line) × List Line
  | [] => ([], [])
  | l :: ls =>
    match l.isSummary, cut ls with
    | true, (done, rest) => ([l] :: done, rest)
    | false, (s :: done, rest) => ((l :: s) :: done, rest)
    | false, ([], rest) => ([], l :: rest)

/-- The lines of a segment that are kept: all but separators, footers, and blank text before the first
text that is not blank. -/
def kept (seg : List Line) : List Line :=
  (seg.takeWhile (!·.isContent)).filter (fun l => !l.isCosmetic && !l.isGap) ++
    (seg.dropWhile (!·.isContent)).filter (!·.isCosmetic)

/-- The report of a segment that ends in a summary. -/
def report? (seg : List Line) : Option Report :=
  (seg.getLast?.bind Line.counts?).map fun (errors, warnings) =>
    ⟨outputOf (kept seg), errors, warnings⟩

/-- The reports of lines, one for each summary. -/
def reports (ls : List Line) : List Report := (cut ls).1.filterMap report?

/-- The events of a segment: one for each line that begins a cycle, and its report. -/
def eventsOf (seg : List Line) : List CycleEvent :=
  (seg.filter (·.isStart)).map (fun _ => .started) ++ ((report? seg).map .finished).toList

/-! ## One line more -/

theorem cut_concat (ls : List Line) (l : Line) :
    cut (ls ++ [l]) =
      if l.isSummary then ((cut ls).1 ++ [(cut ls).2 ++ [l]], []) else ((cut ls).1, (cut ls).2 ++ [l]) := by
  induction ls with
  | nil => cases h : l.isSummary <;> simp [cut, h]
  | cons k ls ih =>
    rw [List.cons_append, cut, ih, cut]
    obtain ⟨done, rest⟩ := cut ls
    cases hk : k.isSummary <;> cases hl : l.isSummary <;> cases done <;> rfl

theorem isSummary_of_mem_rest {ls : List Line} {l : Line} (h : l ∈ (cut ls).2) :
    l.isSummary = false := by
  induction ls using List.reverseRecOn with
  | nil => cases h
  | append_singleton ls k ih =>
    rw [cut_concat] at h
    cases hk : k.isSummary with
    | true => simp [hk] at h
    | false =>
      simp only [hk, Bool.false_eq_true, if_false, List.mem_append, List.mem_singleton] at h
      rcases h with h | rfl
      · exact ih h
      · exact hk

theorem kept_concat (seg : List Line) (l : Line) :
    kept (seg ++ [l]) =
      kept seg ++ if l.isCosmetic || (l.isGap && !seg.any (·.isContent)) then [] else [l] := by
  cases h : seg.any (·.isContent) with
  | true =>
    obtain ⟨k, hk, hkc⟩ := List.any_eq_true.mp h
    have hne : (seg.takeWhile (!·.isContent)).length ≠ seg.length := fun hlen => by
      have hall := List.takeWhile_eq_self_iff.mp ((List.takeWhile_prefix _).eq_of_length hlen)
      simpa [hkc] using hall k hk
    have hdrop : (seg.dropWhile (!·.isContent)).isEmpty = false := by
      rw [List.isEmpty_eq_false_iff]
      intro hnil
      simpa [hkc] using List.dropWhile_eq_nil_iff.mp hnil k hk
    rw [kept, List.takeWhile_append, if_neg hne, List.dropWhile_append, if_neg (by simp [hdrop]),
      List.filter_append, ← List.append_assoc, ← kept]
    cases hc : l.isCosmetic <;> simp [hc]
  | false =>
    have hall : ∀ k ∈ seg, (!Line.isContent k) = true := fun k hk => by
      simpa using List.any_eq_false.mp h k hk
    rw [kept, kept, List.takeWhile_append_of_pos hall, List.dropWhile_append_of_pos hall,
      List.takeWhile_eq_self_iff.mpr hall, List.dropWhile_eq_nil_iff.mpr hall, List.filter_nil,
      List.append_nil, List.filter_append, List.append_assoc]
    congr 1
    -- what is left is about the new line alone
    cases hk : l.kind <;> cases hb : Text.allBlank l <;>
      simp [Line.isContent, Line.isCosmetic, Line.isGap, hk, hb]

/-! ## Segments and events -/

theorem report?_eq_none {seg : List Line} (h : ∀ l ∈ seg, l.isSummary = false) :
    report? seg = none := by
  rw [report?]
  cases hl : seg.getLast? with
  | none => rfl
  | some l =>
    have hcounts := h l (List.mem_of_getLast? hl)
    rw [Line.isSummary, Option.isSome_eq_false_iff, Option.isNone_iff_eq_none] at hcounts
    rw [Option.bind_some, hcounts, Option.map_none]

theorem kind_of_counts? {l : Line} {errors warnings : Nat} (h : l.counts? = some (errors, warnings)) :
    l.kind = .summary errors warnings := by
  unfold Line.counts? at h
  split at h
  · next hk => cases h; exact hk
  · cases h

theorem report?_concat {seg : List Line} {l : Line} {errors warnings : Nat}
    (h : l.counts? = some (errors, warnings)) :
    report? (seg ++ [l]) = some ⟨outputOf (kept (seg ++ [l])), errors, warnings⟩ := by
  rw [report?, List.getLast?_concat, Option.bind_some, h, Option.map_some]

theorem push_of_counts? (seg : List Line) (b : Bool) {l : Line} {errors warnings : Nat}
    (h : l.counts? = some (errors, warnings)) :
    push ⟨(kept seg).reverse, b⟩ l =
      (⟨[], false⟩, some (.finished ⟨outputOf (kept (seg ++ [l])), errors, warnings⟩)) := by
  have hk := kind_of_counts? h
  have hkept : kept (seg ++ [l]) = kept seg ++ [l] := by
    simp [kept_concat, Line.isCosmetic, Line.isGap, hk]
  simp only [push, hk, hkept, List.reverse_cons, List.reverse_reverse]

theorem push_of_not_summary (seg : List Line) {l : Line} (h : l.isSummary = false) :
    push ⟨(kept seg).reverse, seg.any (·.isContent)⟩ l =
      (⟨(kept (seg ++ [l])).reverse, (seg ++ [l]).any (·.isContent)⟩,
        if l.isStart then some .started else none) := by
  rw [kept_concat, List.any_append]
  cases hk : l.kind with
  | summary errors warnings => simp [Line.isSummary, Line.counts?, hk] at h
  | text =>
    cases hb : Text.allBlank l <;> cases hc : seg.any (·.isContent) <;>
      simp [push, Line.isStart, Line.isContent, Line.isCosmetic, Line.isGap, hk, hb]
  | _ => simp [push, Line.isStart, Line.isContent, Line.isCosmetic, Line.isGap, hk]

theorem eventsOf_concat_of_counts? {seg : List Line} (hseg : report? seg = none) {l : Line}
    {errors warnings : Nat} (h : l.counts? = some (errors, warnings)) :
    eventsOf (seg ++ [l]) =
      eventsOf seg ++ [.finished ⟨outputOf (kept (seg ++ [l])), errors, warnings⟩] := by
  have hstart : l.isStart = false := by simp [Line.isStart, kind_of_counts? h]
  rw [eventsOf, report?_concat h, eventsOf, hseg, List.filter_append]
  simp [hstart]

theorem eventsOf_concat_of_not_summary {seg : List Line} (hseg : report? seg = none) {l : Line}
    (h : l.counts? = none) :
    eventsOf (seg ++ [l]) = eventsOf seg ++ if l.isStart then [.started] else [] := by
  have hnext : report? (seg ++ [l]) = none := by
    rw [report?, List.getLast?_concat, Option.bind_some, h, Option.map_none]
  rw [eventsOf, hnext, eventsOf, hseg, List.filter_append]
  cases hl : l.isStart <;> simp [hl]

/-- **A new cycle that is fed lines keeps what the segment in progress keeps, and its events are those of
the segments.** -/
theorem run_eq (ls : List Line) :
    run {} ls =
      (⟨(kept (cut ls).2).reverse, (cut ls).2.any (·.isContent)⟩,
        (cut ls).1.flatMap eventsOf ++ eventsOf (cut ls).2) := by
  induction ls using List.reverseRecOn with
  | nil => rfl
  | append_singleton ls l ih =>
    have hopen : report? (cut ls).2 = none := report?_eq_none fun _ => isSummary_of_mem_rest
    rw [run_append, ih, cut_concat]
    cases h : l.counts? with
    | some counts =>
      obtain ⟨errors, warnings⟩ := counts
      rw [if_pos (by rw [Line.isSummary, h, Option.isSome_some])]
      simp only [run, push_of_counts? _ _ h, List.flatMap_append, List.flatMap_singleton,
        eventsOf_concat_of_counts? hopen h, Option.toList_some, List.append_assoc, List.append_nil]
      rfl
    | none =>
      have hs : l.isSummary = false := by rw [Line.isSummary, h, Option.isSome_none]
      rw [if_neg (by rw [hs]; exact Bool.false_ne_true)]
      simp only [run, push_of_not_summary _ hs, eventsOf_concat_of_not_summary hopen h, List.append_nil,
        List.append_assoc]
      cases l.isStart <;> rfl

/-! ## Reports and markers -/

theorem filterMap_report?_run (ls : List Line) :
    (run {} ls).2.filterMap CycleEvent.report? = reports ls := by
  have hseg : ∀ seg, (eventsOf seg).filterMap CycleEvent.report? = (report? seg).toList := by
    intro seg
    rw [eventsOf, List.filterMap_append, List.filterMap_map]
    cases report? seg <;> simp [Function.comp_def, CycleEvent.report?]
  have hopen : report? (cut ls).2 = none := report?_eq_none fun _ => isSummary_of_mem_rest
  rw [run_eq, List.filterMap_append, hseg, hopen, Option.toList_none, List.append_nil, reports]
  induction (cut ls).1 with
  | nil => rfl
  | cons seg segs ih =>
    rw [List.flatMap_cons, List.filterMap_append, hseg, ih, List.filterMap_cons]
    cases report? seg <;> rfl

theorem map_counts_reports (ls : List Line) :
    (reports ls).map (fun r => (r.errors, r.warnings)) = ls.filterMap Line.counts? := by
  induction ls using List.reverseRecOn with
  | nil => rfl
  | append_singleton ls l ih =>
    rw [reports, cut_concat, List.filterMap_append]
    cases h : l.counts? with
    | some counts =>
      obtain ⟨errors, warnings⟩ := counts
      rw [if_pos (by rw [Line.isSummary, h, Option.isSome_some]), List.filterMap_append,
        List.map_append, ← reports, ih]
      simp [report?_concat h, h]
    | none =>
      rw [if_neg (by rw [Line.isSummary, h]; exact Bool.false_ne_true), ← reports, ih]
      simp [h]

theorem event_push (c : Cycle) (l : Line) :
    (c.push l).2.map (·.report?.isSome) =
      if l.isStart || l.isSummary then some l.isSummary else none := by
  cases hk : l.kind with
  | text =>
    simp only [push, hk, Line.isStart, Line.isSummary, Line.counts?]
    split <;> rfl
  | _ => simp [push, hk, Line.isStart, Line.isSummary, Line.counts?, CycleEvent.report?]

/-- The last event is a report iff the last line that begins or ends a cycle ends one. -/
theorem getLast?_run (ls : List Line) :
    (run {} ls).2.getLast?.map (·.report?.isSome) = (Line.lastMarker? ls).map (·.isSummary) := by
  induction ls using List.reverseRecOn with
  | nil => rfl
  | append_singleton ls l ih =>
    have hevent := event_push (run {} ls).1 l
    rw [run_append, Line.lastMarker?, List.filter_append, List.getLast?_append, List.getLast?_append]
    simp only [run, List.append_nil]
    cases hl : l.isStart || l.isSummary with
    | true =>
      rw [hl, if_pos rfl, Option.map_eq_some_iff] at hevent
      obtain ⟨e, he, hs⟩ := hevent
      simp [he, hl, hs]
    | false =>
      rw [hl, if_neg Bool.false_ne_true, Option.map_eq_none_iff] at hevent
      rw [hevent, List.filter_cons_of_neg (by rw [hl]; exact Bool.false_ne_true)]
      exact ih

/-- If the last marker is a summary, the last report is that of this summary. -/
theorem getLast?_reports {ls : List Line} {l : Line} {errors warnings : Nat}
    (hl : Line.lastMarker? ls = some l) (hc : l.counts? = some (errors, warnings)) :
    ∃ r, (reports ls).getLast? = some r ∧ r.errors = errors ∧ r.warnings = warnings := by
  have hfilter : (ls.filter fun l => l.isStart || l.isSummary).filterMap Line.counts? =
      ls.filterMap Line.counts? := by
    rw [List.filterMap_filter]
    congr 1
    funext k
    cases hk : k.counts? <;> simp [Line.isSummary, hk]
  obtain ⟨before, hbefore⟩ := List.getLast?_eq_some_iff.mp hl
  have hlast : ((reports ls).map fun r => (r.errors, r.warnings)).getLast? = some (errors, warnings) := by
    rw [map_counts_reports, ← hfilter, hbefore, List.filterMap_append]
    simp [hc]
  rw [List.getLast?_map, Option.map_eq_some_iff] at hlast
  obtain ⟨r, hr, hcounts⟩ := hlast
  exact ⟨r, hr, congrArg Prod.fst hcounts, congrArg Prod.snd hcounts⟩

end Cycle

end WarmCheck

import Mathlib.Data.List.Basic
import WarmCheck.Proofs.Segments

/-!
# Reports

What is fed to a new cycle is cut after each summary. The report of a segment is the text of the lines that
are kept; cut at its newlines, it gives these lines back, so that the reports and the cycle in progress hold
every line that is kept once, in order, and in its own segment.

* `Text.splitOn_eq_iff`: the pieces of a text are what stands between its separators.
* `Text.trimEnd_append`: lines that are joined, and trimmed at the end.
* `Cycle.IsCut`: lines cut after each summary.
* `Cycle.keeps`, `Cycle.keptOf`: whether a line is kept, from the lines before it.
* `Cycle.exists_report`: the lines of a report.
* **`Cycle.run_segments`**: the events of a new cycle that is fed lines, and what its reports hold.
-/

namespace WarmCheck

/-! ## Joining and trimming -/

namespace Text

theorem not_mem_of_mem_splitOn {α : Type} [BEq α] [LawfulBEq α] {sep : α} {cs l : List α}
    (h : l ∈ cs.splitOn sep) : sep ∉ l := by
  induction cs generalizing l with
  | nil =>
    rw [List.mem_singleton.mp h]
    exact List.not_mem_nil
  | cons c cs ih =>
    obtain ⟨p, ps, hp⟩ := List.exists_cons_of_ne_nil (List.splitOn_ne_nil sep cs)
    rw [List.splitOn_cons_eq_if_modifyHead, hp] at h
    rw [hp] at ih
    split at h
    · rcases List.mem_cons.mp h with rfl | hl
      · exact List.not_mem_nil
      · exact ih hl
    · next hc =>
      rcases List.mem_cons.mp h with rfl | hl
      · have hne : sep ≠ c := fun heq => hc (beq_iff_eq.mpr heq.symm)
        simp [hne, ih List.mem_cons_self]
      · exact ih (List.mem_cons_of_mem p hl)

/-- The pieces of a text are what stands between its separators. -/
theorem splitOn_eq_iff {α : Type} [BEq α] [LawfulBEq α] {sep : α} {cs : List α} {ls : List (List α)} :
    cs.splitOn sep = ls ↔ ls ≠ [] ∧ (∀ l ∈ ls, sep ∉ l) ∧ cs = [sep].intercalate ls := by
  constructor
  · rintro rfl
    exact ⟨List.splitOn_ne_nil sep cs, fun l hl => not_mem_of_mem_splitOn hl,
      (List.intercalate_splitOn sep).symm⟩
  · rintro ⟨hne, hls, rfl⟩
    exact List.splitOn_intercalate sep hls hne

theorem intercalate_concat {α : Type} (sep : α) (ls : List (List α)) (l : List α) :
    [sep].intercalate (ls ++ [l]) = ls.flatMap (· ++ [sep]) ++ l := by
  induction ls with
  | nil => simp [List.intercalate]
  | cons k ls ih =>
    have hne : ls ++ [l] ≠ [] := List.append_ne_nil_of_right_ne_nil ls (List.cons_ne_nil l [])
    obtain ⟨m, ms, hms⟩ := List.exists_cons_of_ne_nil hne
    rw [List.cons_append, hms, List.flatMap_cons, List.append_assoc, ← ih, hms]
    simp [List.intercalate]

theorem trimEnd_append (a : List Char) {b : List Char} (hb : allBlank b = false) :
    trimEnd (a ++ b) = a ++ trimEnd b := by
  have hne : (b.reverse.dropWhile isBlank).isEmpty = false := by
    rw [List.isEmpty_eq_false_iff]
    intro hnil
    rw [List.dropWhile_eq_nil_iff] at hnil
    have hall : allBlank b = true := List.all_eq_true.mpr fun c hc => hnil c (List.mem_reverse.mpr hc)
    rw [hb] at hall
    cases hall
  rw [trimEnd, List.reverse_append, List.dropWhile_append, if_neg (by rw [hne]; exact Bool.false_ne_true),
    List.reverse_append, List.reverse_reverse, ← trimEnd]

theorem mem_of_mem_trimEnd {c : Char} {cs : List Char} (h : c ∈ trimEnd cs) : c ∈ cs := by
  rw [trimEnd, List.mem_reverse] at h
  exact List.mem_reverse.mp ((List.dropWhile_sublist _).subset h)

end Text

/-! ## Summaries -/

namespace Line

theorem allBlank_of_summary? {cs : List Char} {x : List Char × List Char} (h : summary? cs = some x) :
    Text.allBlank cs = false := by
  obtain ⟨before, rest, rfl, hrest⟩ := exists_of_summary? h
  simp only [summaryAt?, Option.bind_eq_bind, Option.bind_eq_some_iff] at hrest
  obtain ⟨after, hword, -⟩ := hrest
  have hfound : Text.allBlank "found ".toList = false := rfl
  rw [Text.allBlank, List.all_append, ← List.isPrefixOf?_eq_some_iff_append_eq.mp hword, List.all_append,
    ← Text.allBlank, ← Text.allBlank, hfound, Bool.false_and, Bool.and_false]

theorem allBlank_of_counts? {l : Line} {counts : Nat × Nat} (h : l.counts? = some counts) :
    Text.allBlank l = false := by
  obtain ⟨ds, es, hs, -, -⟩ := kind_eq_summary_iff.mp (Cycle.kind_of_counts? h)
  exact allBlank_of_summary? hs

/-- A line as a report holds it: the last one, which is the summary, has lost its trailing blanks. -/
def inReport (l : Line) : Line := if l.isSummary then Text.trimEnd l else l

theorem map_inReport_eq_self {ls : List Line} (h : ∀ l ∈ ls, l.isSummary = false) :
    ls.map inReport = ls := by
  have hself : ∀ l ∈ ls, inReport l = l := fun l hl => by
    rw [inReport, if_neg (by rw [h l hl]; exact Bool.false_ne_true)]
  rw [List.map_congr_left hself, List.map_id']

end Line

/-- The lines of the output of a report. -/
def Report.lines (r : Report) : List Line := List.splitOn '\n' r.output.toList

namespace Cycle

/-! ## Cutting -/

/-- Lines cut after each summary: segments that end in their only summary, and the lines after the last
summary. -/
structure IsCut (ls : List Line) (done : List (List Line)) (rest : List Line) : Prop where
  /-- Every line is in one segment, in order. -/
  flatten : done.flatten ++ rest = ls
  closed : ∀ seg ∈ done, ∃ body l, seg = body ++ [l] ∧ l.isSummary = true ∧
    ∀ k ∈ body, k.isSummary = false
  pending : ∀ l ∈ rest, l.isSummary = false

theorem isCut_cut (ls : List Line) : IsCut ls (cut ls).1 (cut ls).2 := by
  induction ls using List.reverseRecOn with
  | nil => exact ⟨rfl, nofun, nofun⟩
  | append_singleton ls l ih =>
    obtain ⟨hflatten, hclosed, hpending⟩ := ih
    rw [cut_concat]
    cases hl : l.isSummary with
    | true =>
      refine ⟨?_, fun seg hseg => ?_, nofun⟩
      · simp only [if_true, List.flatten_append, List.flatten_singleton, List.append_nil]
        rw [← List.append_assoc, hflatten]
      · rcases List.mem_append.mp hseg with hseg | hseg
        · exact hclosed seg hseg
        · exact ⟨(cut ls).2, l, List.mem_singleton.mp hseg, hl, hpending⟩
    | false =>
      refine ⟨?_, hclosed, fun k hk => ?_⟩
      · simp only [Bool.false_eq_true, if_false]
        rw [← List.append_assoc, hflatten]
      · rcases List.mem_append.mp hk with hk | hk
        · exact hpending k hk
        · rw [List.mem_singleton.mp hk, hl]

/-! ## Keeping -/

/-- Whether a line that comes after others is kept: it is neither separator nor footer, nor blank text
where no text with something in it has come since the last summary. -/
def keeps (before : List Line) (l : Line) : Bool :=
  !(l.isCosmetic || (l.isGap && !(cut before).2.any (·.isContent)))

def keptOf (ls : List Line) : List Line :=
  (ls.zipIdx.filter fun (l, i) => keeps (ls.take i) l).map (·.1)

theorem keptOf_concat (ls : List Line) (l : Line) :
    keptOf (ls ++ [l]) = keptOf ls ++ if keeps ls l then [l] else [] := by
  -- what comes before an earlier line is what came before it already
  have hbefore : ls.zipIdx.filter (fun (k, i) => keeps ((ls ++ [l]).take i) k) =
      ls.zipIdx.filter fun (k, i) => keeps (ls.take i) k := by
    refine List.filter_congr fun (k, i) hk => ?_
    obtain ⟨-, hi, -⟩ := List.mem_zipIdx hk
    simp only [List.take_append_of_le_length (show i ≤ ls.length by omega)]
  have hlast : (ls ++ [l]).take (0 + ls.length) = ls := by
    rw [Nat.zero_add, List.take_left]
  rw [keptOf, List.zipIdx_append, List.filter_append, hbefore, List.map_append, ← keptOf]
  cases hk : keeps ls l <;> simp [hk]

theorem flatMap_kept_cut (ls : List Line) :
    (cut ls).1.flatMap kept ++ kept (cut ls).2 = keptOf ls := by
  induction ls using List.reverseRecOn with
  | nil => rfl
  | append_singleton ls l ih =>
    -- whether the line is kept does not depend on whether it ends its segment
    have hnext : (cut ls).1.flatMap kept ++ kept ((cut ls).2 ++ [l]) =
        keptOf ls ++ if keeps ls l then [l] else [] := by
      rw [kept_concat, ← List.append_assoc, ih, keeps]
      cases l.isCosmetic || l.isGap && !(cut ls).2.any (·.isContent) <;> rfl
    rw [keptOf_concat, cut_concat, ← hnext]
    cases l.isSummary with
    | true =>
      have hnone : kept [] = [] := rfl
      simp [hnone]
    | false => rfl

theorem mem_of_mem_kept {seg : List Line} {l : Line} (h : l ∈ kept seg) : l ∈ seg := by
  rcases List.mem_append.mp h with h | h
  · exact (List.takeWhile_sublist _).subset (List.mem_filter.mp h).1
  · exact (List.dropWhile_sublist _).subset (List.mem_filter.mp h).1

theorem kept_concat_of_counts? (body : List Line) {l : Line} {counts : Nat × Nat}
    (h : l.counts? = some counts) : kept (body ++ [l]) = kept body ++ [l] := by
  have hk := kind_of_counts? h
  simp [kept_concat, Line.isCosmetic, Line.isGap, hk]

/-! ## The lines of a report -/

/-- Lines that are joined and trimmed at the end are those lines, but for the blanks at the end. -/
theorem splitOn_outputOf {ls : List Line} {l : Line} (hls : ∀ k ∈ ls, '\n' ∉ k) (hl : '\n' ∉ l)
    (hb : Text.allBlank l = false) :
    List.splitOn '\n' (outputOf (ls ++ [l])).toList = ls ++ [Text.trimEnd l] := by
  have hlines : ∀ k ∈ ls ++ [Text.trimEnd l], '\n' ∉ k := by
    intro k hk
    rcases List.mem_append.mp hk with hk | hk
    · exact hls k hk
    · rw [List.mem_singleton.mp hk]
      exact fun h => hl (Text.mem_of_mem_trimEnd h)
  rw [outputOf, String.toList_ofList, Text.intercalate_concat, Text.trimEnd_append _ hb,
    ← Text.intercalate_concat, List.splitOn_intercalate _ hlines (by simp)]

/-- **The lines of a report are those that its segment keeps.** -/
theorem exists_report {seg body : List Line} {l : Line} (hseg : seg = body ++ [l])
    (hl : l.isSummary = true) (hbody : ∀ k ∈ body, k.isSummary = false) (hlines : ∀ k ∈ seg, '\n' ∉ k) :
    ∃ r, report? seg = some r ∧ r.lines = (kept seg).map Line.inReport := by
  subst hseg
  obtain ⟨⟨errors, warnings⟩, hcounts⟩ := Option.isSome_iff_exists.mp hl
  refine ⟨_, report?_concat hcounts, ?_⟩
  have hkept : (kept body).map Line.inReport = kept body :=
    Line.map_inReport_eq_self fun k hk => hbody k (mem_of_mem_kept hk)
  have hlast : Line.inReport l = Text.trimEnd l := by rw [Line.inReport, if_pos hl]
  -- the summary is not blank, so that trimming the end leaves the lines before it alone
  rw [Report.lines, kept_concat_of_counts? body hcounts, List.map_append, hkept, List.map_singleton, hlast]
  refine splitOn_outputOf (fun k hk => ?_) ?_ (Line.allBlank_of_counts? hcounts)
  · exact hlines k (List.mem_append_left _ (mem_of_mem_kept hk))
  · exact hlines l (List.mem_append_right _ (List.mem_singleton.mpr rfl))

theorem flatMap_lines {segs : List (List Line)}
    (h : ∀ seg ∈ segs, ∃ r, report? seg = some r ∧ r.lines = (kept seg).map Line.inReport) :
    (segs.filterMap report?).flatMap Report.lines = (segs.flatMap kept).map Line.inReport := by
  induction segs with
  | nil => rfl
  | cons seg segs ih =>
    obtain ⟨r, hr, hlines⟩ := h seg List.mem_cons_self
    rw [List.filterMap_cons_some hr, List.flatMap_cons, List.flatMap_cons, List.map_append, hlines,
      ih fun s hs => h s (List.mem_cons_of_mem seg hs)]

/-- **The reports and the segment in progress have all lines that are kept**, each once and in order. -/
theorem flatMap_lines_reports {ls : List Line} (h : ∀ l ∈ ls, '\n' ∉ l) :
    (reports ls).flatMap Report.lines ++ kept (cut ls).2 = (keptOf ls).map Line.inReport := by
  obtain ⟨hflatten, hclosed, hpending⟩ := isCut_cut ls
  have hreports : ∀ seg ∈ (cut ls).1, ∃ r, report? seg = some r ∧
      r.lines = (kept seg).map Line.inReport := by
    intro seg hseg
    obtain ⟨body, l, heq, hl, hbody⟩ := hclosed seg hseg
    refine exists_report heq hl hbody fun k hk => h k ?_
    rw [← hflatten]
    exact List.mem_append_left _ (List.mem_flatten.mpr ⟨seg, hseg, hk⟩)
  have hrest : (kept (cut ls).2).map Line.inReport = kept (cut ls).2 :=
    Line.map_inReport_eq_self fun k hk => hpending k (mem_of_mem_kept hk)
  rw [← flatMap_kept_cut, List.map_append, hrest, reports, flatMap_lines hreports]

/-! ## Segments -/

/-- The events of the lines of a segment that begin a cycle. -/
def starts (seg : List Line) : List CycleEvent := (seg.filter (·.isStart)).map fun _ => .started

/-- The report of a segment has the counts of its summary, and the lines that are kept, joined by newlines
and trimmed at the end. -/
def IsReportOf (seg : List Line) (r : Report) : Prop :=
  ∃ body l, seg = body ++ [l] ∧ l.kind = .summary r.errors r.warnings ∧ r.output = outputOf (kept seg)

theorem eventsOf_pending (ls : List Line) : eventsOf (cut ls).2 = starts (cut ls).2 := by
  have hnone : report? (cut ls).2 = none := report?_eq_none fun _ => (isCut_cut ls).pending _
  rw [eventsOf, hnone, Option.map_none, Option.toList_none, List.append_nil, starts]

theorem eventsOf_closed {ls seg : List Line} (h : seg ∈ (cut ls).1) :
    ∃ r, eventsOf seg = starts seg ++ [.finished r] ∧ IsReportOf seg r := by
  obtain ⟨body, l, rfl, hl, -⟩ := (isCut_cut ls).closed seg h
  obtain ⟨⟨errors, warnings⟩, hcounts⟩ := Option.isSome_iff_exists.mp hl
  refine ⟨⟨outputOf (kept (body ++ [l])), errors, warnings⟩, ?_, body, l, rfl, kind_of_counts? hcounts, rfl⟩
  rw [eventsOf, report?_concat hcounts, starts]
  rfl

/-- **A new cycle that is fed lines reports their segments.** The lines are cut after each summary. The
events are, segment by segment, one for each line that begins a cycle, and the report of the segment. The
segments keep every line but separators, footers, and blank text before the first text of the segment with
something in it; the lines of all reports, and of the cycle in progress, are those that are kept, each once and
in order. -/
theorem run_segments (ls : List Line) :
    IsCut ls (cut ls).1 (cut ls).2 ∧
      ((run {} ls).2 = (cut ls).1.flatMap eventsOf ++ starts (cut ls).2 ∧
        ∀ seg ∈ (cut ls).1, ∃ r, eventsOf seg = starts seg ++ [.finished r] ∧ IsReportOf seg r) ∧
      (cut ls).1.flatMap kept ++ (run {} ls).1.lines = keptOf ls ∧
      ((∀ l ∈ ls, '\n' ∉ l) →
        ((run {} ls).2.filterMap (·.report?)).flatMap Report.lines ++ (run {} ls).1.lines =
          (keptOf ls).map Line.inReport) := by
  have hlines : (run {} ls).1.lines = kept (cut ls).2 := by
    rw [run_eq, lines, List.reverse_reverse]
  refine ⟨isCut_cut ls, ⟨?_, fun seg => eventsOf_closed⟩, ?_, fun h => ?_⟩
  · rw [run_eq, eventsOf_pending]
  · rw [hlines, flatMap_kept_cut]
  · rw [hlines, filterMap_report?_run, flatMap_lines_reports h]

/-- Two segments and a cycle in progress, with blanks and cosmetic lines at their edges. -/
theorem run_segments_two :
    let ls : List Line := ["====".toList, "Getting Svelte diagnostics...".toList, "".toList, "a.ts:1:2".toList,
      "".toList, "found 1 error and 0 warnings ".toList, "Watching for file changes...".toList, "\t".toList,
      "found 0 errors and 0 warnings".toList, "Loading svelte-check in workspace".toList, " ".toList]
    (∀ l ∈ ls, '\n' ∉ l) ∧
      ((run {} ls).2.filterMap (·.report?)).flatMap Report.lines ++ (run {} ls).1.lines =
        ["Getting Svelte diagnostics...".toList, "a.ts:1:2".toList, "".toList,
          "found 1 error and 0 warnings".toList, "found 0 errors and 0 warnings".toList,
          "Loading svelte-check in workspace".toList] := by
  intro ls
  have hlines : ∀ l ∈ ls, '\n' ∉ l := by decide +kernel
  refine ⟨hlines, ((run_segments ls).2.2.2 hlines).trans ?_⟩
  decide +kernel

end Cycle

end WarmCheck

import WarmCheck.Proofs.Ascii
import WarmCheck.Proofs.Phrases
import WarmCheck.Proofs.Supervision

/-!
# Consistent snapshots

What a snapshot says agrees with itself. The lines of chunks have no newlines, so the output of a report, cut
at its newlines, gives back the lines that were kept, and trimming it leaves the summary a summary. A snapshot
shows the last report there was, or none, and is complete only while that report is the last event.

* `Line.not_mem_ofBytes`, `Output.not_mem_of_mem_lines`: lines have no newlines.
* `Report.IsSound`, **`Cycle.isSound_of_mem_reports`**: what the output of a report is made of.
* `Snapshot.IsConsistent`: the output of a snapshot, if it has one, agrees with its flags.
* **`Supervisor.isConsistent_run`**: snapshots are consistent after any history and within any chunk.
-/

namespace WarmCheck

/-! ## Lines without newlines -/

namespace Line

theorem mem_of_dropEscape? {cs rest : List Char} (h : dropEscape? cs = some rest) {c : Char} (hc : c ∈ rest) :
    c ∈ cs := by
  unfold dropEscape? at h
  split at h
  · next cs =>
    split at h
    · next d r hd =>
      split at h
      · cases h
        have hmem : c ∈ cs.dropWhile isParameter := by rw [hd]; exact List.mem_cons_of_mem d hc
        simp [(List.dropWhile_sublist _).subset hmem]
      · cases h
    · cases h
  · cases h

theorem mem_of_mem_dropEscapes {cs : List Char} {c : Char} (h : c ∈ dropEscapes cs) : c ∈ cs := by
  fun_induction dropEscapes cs with
  | case1 cs rest hrest _ ih => exact mem_of_dropEscape? hrest (ih h)
  | case2 => exact h
  | case3 d cs _ ih =>
    rcases List.mem_cons.mp h with rfl | h
    · exact List.mem_cons_self
    · exact List.mem_cons_of_mem d (ih h)

theorem mem_of_mem_dropCarriageReturn {bs : Bytes} {b : UInt8} (h : b ∈ dropCarriageReturn bs) : b ∈ bs := by
  unfold dropCarriageReturn at h
  split at h
  · next r hr =>
    have hmem : b ∈ bs.reverse := by rw [hr]; exact List.mem_cons_of_mem 13 (List.mem_reverse.mp h)
    exact List.mem_reverse.mp hmem
  · exact h

/-- A line that is read from octets without a newline has none. -/
theorem not_mem_ofBytes {bs : Bytes} (h : Output.newline ∉ bs) : '\n' ∉ ofBytes bs := by
  intro hmem
  have hread := Utf8.mem_of_mem_decodeLossy (by decide) (by decide) (mem_of_mem_dropEscapes hmem)
  exact h (mem_of_mem_dropCarriageReturn hread)

end Line

namespace Output

theorem mem_of_mem_weave {α : Type} {items : Pipe → List α} {ps : List Pipe} {a : α}
    (h : a ∈ weave items ps) : ∃ p, a ∈ items p := by
  induction ps generalizing items with
  | nil => cases h
  | cons p ps ih =>
    rcases List.mem_append.mp h with h | h
    · exact ⟨p, List.mem_of_head? (Option.mem_toList.mp h)⟩
    · obtain ⟨q, hq⟩ := ih h
      by_cases hqp : q = p
      · subst hqp
        rw [Function.update_self] at hq
        exact ⟨q, List.mem_of_mem_tail hq⟩
      · rw [Function.update_of_ne hqp] at hq
        exact ⟨q, hq⟩

/-- The lines that chunks complete have no newlines. -/
theorem not_mem_of_mem_lines {chunks : List (Pipe × Bytes)} {l : Line} (h : l ∈ lines chunks) : '\n' ∉ l := by
  obtain ⟨bs, hbs, rfl⟩ := List.mem_map.mp h
  obtain ⟨p, hp⟩ := mem_of_mem_weave hbs
  exact Line.not_mem_ofBytes (Text.not_mem_of_mem_splitOn ((List.dropLast_sublist _).subset hp))

end Output

/-! ## Reports -/

/-- The output of a report ends in its summary; the lines before it are text or begin a cycle, and nothing
blank follows. -/
structure Report.IsSound (r : Report) (body : List Line) (last : Line) : Prop where
  lines : r.lines = body ++ [last]
  last : last.kind = .summary r.errors r.warnings
  body : ∀ l ∈ body, l.kind = .text ∨ l.kind = .started
  ending : ∀ c ∈ r.output.toList.getLast?, Text.isBlank c = false

namespace Cycle

theorem isCosmetic_of_mem_kept {seg : List Line} {l : Line} (h : l ∈ kept seg) : l.isCosmetic = false := by
  rcases List.mem_append.mp h with h | h
  · have := (List.mem_filter.mp h).2
    simp_all
  · have := (List.mem_filter.mp h).2
    simp_all

theorem kind_of_mem_kept {seg : List Line} (hseg : ∀ k ∈ seg, k.isSummary = false) {l : Line}
    (h : l ∈ kept seg) : l.kind = .text ∨ l.kind = .started := by
  have hcosmetic := isCosmetic_of_mem_kept h
  have hsummary := hseg l (mem_of_mem_kept h)
  cases hk : l.kind with
  | text => exact .inl rfl
  | started => exact .inr rfl
  | summary => simp [Line.isSummary, Line.counts?, hk] at hsummary
  | separator | footer => simp [Line.isCosmetic, hk] at hcosmetic

/-- **Every report of lines is sound**: neither joining its lines nor trimming them changes what they are. -/
theorem isSound_of_mem_reports {ls : List Line} (hls : ∀ l ∈ ls, '\n' ∉ l) {r : Report} (h : r ∈ reports ls) :
    ∃ body last, r.IsSound body last := by
  obtain ⟨seg, hseg, hr⟩ := List.mem_filterMap.mp h
  obtain ⟨hflatten, hclosed, -⟩ := isCut_cut ls
  obtain ⟨body, l, rfl, hl, hbody⟩ := hclosed seg hseg
  obtain ⟨⟨errors, warnings⟩, hcounts⟩ := Option.isSome_iff_exists.mp hl
  have hmem : ∀ k ∈ body ++ [l], k ∈ ls := fun k hk => by
    rw [← hflatten]
    exact List.mem_append_left _ (List.mem_flatten.mpr ⟨_, hseg, hk⟩)
  have hfree : ∀ k ∈ body, '\n' ∉ k := fun k hk => hls k (hmem k (List.mem_append_left _ hk))
  rw [report?_concat hcounts, Option.some.injEq, kept_concat_of_counts? body hcounts] at hr
  subst hr
  refine ⟨kept body, Text.trimEnd l, ?_, Line.kind_trimEnd (kind_of_counts? hcounts),
    fun k hk => kind_of_mem_kept hbody hk, fun c hc => ?_⟩
  · exact splitOn_outputOf (fun k hk => hfree k (mem_of_mem_kept hk))
      (hls l (hmem l (List.mem_append_right _ List.mem_cons_self))) (Line.allBlank_of_counts? hcounts)
  · rw [outputOf, String.toList_ofList] at hc
    exact Text.isBlank_getLast_trimEnd hc

end Cycle

/-! ## Snapshots -/

namespace Snapshot

/-- The lines of the output of a snapshot. -/
def lines (s : Snapshot) : List Line := List.splitOn '\n' s.output.toList

/-- The output of a snapshot is a report that its flags agree with: the last line is a summary with errors
iff there is the flag for errors, and likewise for warnings; the lines before it are text or begin a cycle,
and nothing blank follows. -/
structure HoldsReport (s : Snapshot) (body : List Line) (last : Line) (errors warnings : Nat) : Prop where
  lines : s.lines = body ++ [last]
  last : last.kind = .summary errors warnings
  hasErrors : s.hasErrors = true ↔ 0 < errors
  hasWarnings : s.hasWarnings = true ↔ 0 < warnings
  body : ∀ l ∈ body, l.kind = .text ∨ l.kind = .started
  ending : ∀ c ∈ s.output.toList.getLast?, Text.isBlank c = false

/-- A snapshot is blank or holds a report, and where it is complete it holds one. -/
structure IsConsistent (s : Snapshot) : Prop where
  blank_or_holds : s = blank s.lastUpdate ∨ ∃ body last errors warnings, s.HoldsReport body last errors warnings
  of_isComplete : s.isComplete = true →
    s.output ≠ "" ∧ ∃ body last errors warnings, s.HoldsReport body last errors warnings

theorem HoldsReport.output_ne {s : Snapshot} {body : List Line} {last : Line} {errors warnings : Nat}
    (h : s.HoldsReport body last errors warnings) : s.output ≠ "" := by
  intro hempty
  have hlines := h.lines
  rw [Snapshot.lines, hempty] at hlines
  -- the only line of an empty output would be the summary
  cases body with
  | nil =>
    have hlast : last = [] := (List.cons.inj hlines).1.symm
    have hkind := h.last
    rw [hlast] at hkind
    cases hkind
  | cons k body => simp [List.splitOn] at hlines

/-- A snapshot of events whose reports are sound is consistent. -/
theorem Shows.isConsistent {s : Snapshot} {es : List CycleEvent} (h : s.Shows es)
    (hes : ∀ r ∈ es.filterMap (·.report?), ∃ body last, r.IsSound body last) : s.IsConsistent := by
  obtain ⟨hcomplete, houtput, herrors, hwarnings⟩ := h
  cases hlast : (es.filterMap (·.report?)).getLast? with
  | none =>
    rw [hlast] at houtput herrors hwarnings
    have hnot : s.isComplete = false := by
      rw [hcomplete]
      cases he : es.getLast? with
      | none => rfl
      | some e =>
        cases e with
        | started => rfl
        | finished r =>
          have hr : r ∈ es.filterMap (·.report?) :=
            List.mem_filterMap.mpr ⟨_, List.mem_of_getLast? he, rfl⟩
          rw [List.getLast?_eq_none_iff] at hlast
          rw [hlast] at hr
          cases hr
    refine ⟨.inl ?_, fun hc => ?_⟩
    · obtain ⟨output, hasErrors, hasWarnings, isComplete, lastUpdate⟩ := s
      simp_all [blank]
    · rw [hnot] at hc
      cases hc
  | some r =>
    obtain ⟨body, last, hsound⟩ := hes r (List.mem_of_getLast? hlast)
    rw [hlast, Option.map_some, Option.getD_some] at houtput herrors hwarnings
    have hholds : s.HoldsReport body last r.errors r.warnings := by
      refine ⟨?_, hsound.last, ?_, ?_, hsound.body, ?_⟩
      · rw [Snapshot.lines, houtput]; exact hsound.lines
      · rw [herrors, decide_eq_true_iff]
      · rw [hwarnings, decide_eq_true_iff]
      · rw [houtput]; exact hsound.ending
    exact ⟨.inr ⟨_, _, _, _, hholds⟩, fun _ => ⟨hholds.output_ne, _, _, _, _, hholds⟩⟩

end Snapshot

namespace Supervisor

/-- **What clients are told agrees with itself**, after any history of restarts, chunks of any generations,
ends of checkers and failures to start one, and also between the events of a chunk. -/
theorem isConsistent_run (t₀ : UInt64) (ok : Bool) (history : List (UInt64 × Input)) :
    let s := (launched t₀ ok).run history
    s.store.current.IsConsistent ∧
      ∀ (p : Pipe) (bs : Bytes) (now : UInt64) (n : Nat),
        (s.store.publishAll (((s.output.feed p bs).2.take n).map .ofEvent) now).current.IsConsistent := by
  intro s
  have h : s.Follows (history.map (·.2)) := by simpa using (follows_launched t₀ ok).run history
  set chunks := current (history.map (·.2)) with hchunks
  -- every report so far, and of one chunk more, is a report of lines
  have hsound : ∀ (p : Pipe) (bs : Bytes), ∀ r ∈ ((Output.feedAll {} chunks).2 ++ (s.output.feed p bs).2).filterMap
      (·.report?), ∃ body last, r.IsSound body last := by
    intro p bs r hr
    have hevents : (Output.feedAll {} (chunks ++ [(p, bs)])).2 =
        (Output.feedAll {} chunks).2 ++ (s.output.feed p bs).2 := by
      rw [Output.feedAll_append, ← h.output]
      simp [Output.feedAll]
    rw [← hevents, Output.feedAll_eq, Cycle.filterMap_report?_run] at hr
    exact Cycle.isSound_of_mem_reports (fun l hl => Output.not_mem_of_mem_lines hl) hr
  refine ⟨h.shows.isConsistent fun r hr => ?_, fun p bs now n => ?_⟩
  · refine hsound .out [] r ?_
    rw [List.filterMap_append]
    exact List.mem_append_left _ hr
  · refine (h.shows.publishAll _ now).isConsistent fun r hr => hsound p bs r ?_
    have hsub := List.Sublist.append (List.Sublist.refl (Output.feedAll {} chunks).2)
      (List.take_sublist n (s.output.feed p bs).2)
    exact (hsub.filterMap _).subset hr

end Supervisor

end WarmCheck

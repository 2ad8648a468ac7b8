import WarmCheck.Proofs.Lines
import WarmCheck.Proofs.Segments
import WarmCheck.Supervisor

/-!
# The snapshot of a supervised checker

What clients are told is determined by the lines of the checker that runs now, however it came to run:
neither earlier checkers nor the moments at which ends of checkers are noticed leave a trace.

* `Snapshot.Tells`: a snapshot tells what lines say.
* `Supervisor.current`: the chunks of the current generation in a history.
* `Supervisor.Agrees`, `Supervisor.Alike`: supervisors that differ in their processes, or in times only.
* **`Supervisor.snapshotLaw_run`**: the law of the snapshot for every history.
-/

namespace WarmCheck

/-! ## What a snapshot tells -/

/-- A snapshot shows the events of some lines: whether the last one is a report, and the last report. -/
structure Snapshot.Shows (s : Snapshot) (es : List CycleEvent) : Prop where
  isComplete : s.isComplete = (es.getLast?.map (·.report?.isSome)).getD false
  output : s.output = ((es.filterMap (·.report?)).getLast?.map (·.output)).getD ""
  hasErrors : s.hasErrors =
    ((es.filterMap (·.report?)).getLast?.map fun r => decide (0 < r.errors)).getD false
  hasWarnings : s.hasWarnings =
    ((es.filterMap (·.report?)).getLast?.map fun r => decide (0 < r.warnings)).getD false

/-- A snapshot tells lines: it is complete iff the last line that begins or ends a cycle ends one, and it
holds the report of the last summary, or nothing if there is no summary. -/
structure Snapshot.Tells (s : Snapshot) (ls : List Line) : Prop where
  isComplete : s.isComplete = true ↔ ∃ l, Line.lastMarker? ls = some l ∧ l.isSummary = true
  output : s.output = ((Cycle.reports ls).getLast?.map (·.output)).getD ""
  hasErrors : s.hasErrors =
    ((Cycle.reports ls).getLast?.map fun r => decide (0 < r.errors)).getD false
  hasWarnings : s.hasWarnings =
    ((Cycle.reports ls).getLast?.map fun r => decide (0 < r.warnings)).getD false

namespace Snapshot

/-- A snapshot but for its time. -/
def undated (s : Snapshot) : Snapshot := { s with lastUpdate := 0 }

theorem undated_apply {s s' : Snapshot} (h : s.undated = s'.undated) (t : Transition)
    (now now' : UInt64) : (t.apply s now).undated = (t.apply s' now').undated := by
  cases t with
  | started =>
    simp only [undated, Snapshot.mk.injEq] at h
    simp only [Transition.apply, afterStart, undated, h]
  | committed | reset => rfl

theorem shows_blank (now : UInt64) : (blank now).Shows [] := ⟨rfl, rfl, rfl, rfl⟩

theorem Shows.apply {s : Snapshot} {es : List CycleEvent} (h : s.Shows es) (e : CycleEvent)
    (now : UInt64) : ((Transition.ofEvent e).apply s now).Shows (es ++ [e]) := by
  cases e with
  | started =>
    have hr : (es ++ [CycleEvent.started]).filterMap (·.report?) = es.filterMap (·.report?) := by
      rw [List.filterMap_append]; exact List.append_nil _
    refine ⟨?_, ?_, ?_, ?_⟩
    · rw [List.getLast?_concat]; rfl
    · rw [hr]; exact h.output
    · rw [hr]; exact h.hasErrors
    · rw [hr]; exact h.hasWarnings
  | finished r =>
    have hr : (es ++ [CycleEvent.finished r]).filterMap (·.report?) =
        es.filterMap (·.report?) ++ [r] := by
      rw [List.filterMap_append]; rfl
    refine ⟨?_, ?_, ?_, ?_⟩
    · rw [List.getLast?_concat]; rfl
    all_goals rw [hr, List.getLast?_concat]; rfl

theorem Shows.publishAll {s : Store} {es : List CycleEvent} (h : s.current.Shows es)
    (new : List CycleEvent) (now : UInt64) :
    (s.publishAll (new.map .ofEvent) now).current.Shows (es ++ new) := by
  induction new generalizing s es with
  | nil => simpa [Store.publishAll] using h
  | cons e new ih =>
    rw [List.append_cons]
    exact ih (h.apply e now)

theorem Shows.tells {s : Snapshot} {ls : List Line} (h : s.Shows (Cycle.run {} ls).2) : s.Tells ls := by
  obtain ⟨hc, ho, he, hw⟩ := h
  rw [Cycle.filterMap_report?_run] at ho he hw
  refine ⟨?_, ho, he, hw⟩
  rw [hc, Cycle.getLast?_run]
  cases hl : Line.lastMarker? ls <;> simp

end Snapshot

theorem Store.undated_publishAll {s s' : Store} (h : s.current.undated = s'.current.undated)
    (ts : List Transition) (now : UInt64) :
    (s.publishAll ts now).current.undated = (s'.publishAll ts now).current.undated := by
  induction ts generalizing s s' with
  | nil => exact h
  | cons t ts ih => exact ih (Snapshot.undated_apply h t now now)

namespace Supervisor

/-! ## Histories -/

/-- Whether an input is a restart. -/
def Input.isRestart : Input → Bool
  | restart _ => true
  | _ => false

/-- Whether an input is about the end of a checker. -/
def Input.isEnd : Input → Bool
  | dies _ | exit => true
  | _ => false

/-- The chunk of an input that delivers output of a generation. -/
def Input.chunkOf? (g : Nat) : Input → Option (Pipe × Bytes)
  | chunk g' p bs => if g' = g then some (p, bs) else none
  | _ => none

/-- Whether an input delivers output of a generation up to `g`. -/
def Input.isUpTo (g : Nat) : Input → Bool
  | chunk g' _ _ => g' ≤ g
  | _ => false

/-- A supervisor that has launched its checker, or has failed to. -/
def launched (now : UInt64) (ok : Bool) : Supervisor := (new now).start ok

/-- The generation after inputs: the launch opens the first, and each restart another. -/
def generationAfter (is : List Input) : Nat := is.countP (·.isRestart) + 1

/-- The inputs since the last restart. -/
def sinceRestart (is : List Input) : List Input := (is.reverse.takeWhile (!·.isRestart)).reverse

/-- The chunks that are tagged with the current generation and have been delivered since it began. -/
def current (is : List Input) : List (Pipe × Bytes) :=
  (sinceRestart is).filterMap (·.chunkOf? (generationAfter is))

theorem generationAfter_concat (is : List Input) (i : Input) :
    generationAfter (is ++ [i]) = generationAfter is + if i.isRestart then 1 else 0 := by
  rw [generationAfter, List.countP_append, List.countP_singleton, generationAfter]
  omega

theorem current_concat_of_isRestart (is : List Input) {i : Input} (h : i.isRestart = true) :
    current (is ++ [i]) = [] := by
  simp [current, sinceRestart, h]

theorem current_concat (is : List Input) {i : Input} (h : i.isRestart = false) :
    current (is ++ [i]) = current is ++ (i.chunkOf? (generationAfter is)).toList := by
  have hgen : generationAfter (is ++ [i]) = generationAfter is := by simp [generationAfter_concat, h]
  rw [current, hgen, sinceRestart, List.reverse_append, List.reverse_singleton, List.singleton_append,
    List.takeWhile_cons_of_pos (by simp [h]), List.reverse_cons, List.filterMap_append, current,
    sinceRestart]
  cases hc : i.chunkOf? (generationAfter is) <;> simp [hc]

/-! ## The invariant -/

/-- What a history determines: the generation, what has been read, and what the snapshot shows. -/
structure Follows (s : Supervisor) (is : List Input) : Prop where
  generation : s.generation = generationAfter is
  output : s.output = (Output.feedAll {} (current is)).1
  shows : s.store.current.Shows (Output.feedAll {} (current is)).2

theorem follows_launched (now : UInt64) (ok : Bool) : (launched now ok).Follows [] := by
  refine ⟨?_, ?_, ?_⟩
  · rw [launched, generation_start]; rfl
  · rw [launched, output_start]; rfl
  · rw [launched, store_start]; exact Snapshot.shows_blank now

/-- An input that leaves the generation, the output and the store as they are, and is no chunk of the
current generation, changes nothing that the history determines. -/
theorem Follows.of_eq {s s' : Supervisor} {is : List Input} {i : Input} (h : s.Follows is)
    (hr : i.isRestart = false) (hc : i.chunkOf? (generationAfter is) = none)
    (hg : s'.generation = s.generation) (ho : s'.output = s.output) (hs : s'.store = s.store) :
    s'.Follows (is ++ [i]) := by
  have hcurrent : current (is ++ [i]) = current is := by simp [current_concat is hr, hc]
  refine ⟨?_, ?_, ?_⟩
  · rw [hg, h.generation, generationAfter_concat, hr]; rfl
  · rw [ho, h.output, hcurrent]
  · rw [hs, hcurrent]; exact h.shows

theorem Follows.step {s : Supervisor} {is : List Input} (h : s.Follows is) (now : UInt64) (i : Input) :
    (s.step now i).Follows (is ++ [i]) := by
  cases i with
  | restart ok =>
    have hcurrent : current (is ++ [.restart ok]) = [] := current_concat_of_isRestart is rfl
    refine ⟨?_, ?_, ?_⟩
    · rw [generationAfter_concat, ← h.generation]; exact generation_restart s ok now
    · rw [hcurrent]; exact output_restart s ok now
    · rw [hcurrent, Supervisor.step, store_restart]; exact Snapshot.shows_blank now
  | chunk g p bs =>
    by_cases hg : g = s.generation
    · have hcurrent : current (is ++ [.chunk g p bs]) = current is ++ [(p, bs)] := by
        rw [current_concat is rfl, Input.chunkOf?, if_pos (hg.trans h.generation)]; rfl
      have hfeed : Output.feedAll {} (current is ++ [(p, bs)]) =
          ((s.output.feed p bs).1, (Output.feedAll {} (current is)).2 ++ (s.output.feed p bs).2) := by
        rw [Output.feedAll_append, ← h.output]
        simp [Output.feedAll]
      rw [Supervisor.step, takeChunk, if_pos hg]
      refine ⟨?_, ?_, ?_⟩
      · rw [generationAfter_concat, ← h.generation]; rfl
      · rw [hcurrent, hfeed]
      · rw [hcurrent, hfeed]; exact h.shows.publishAll _ now
    · refine h.of_eq rfl ?_ ?_ ?_ ?_
      · rw [Input.chunkOf?, if_neg fun hgen => hg (hgen.trans h.generation.symm)]
      all_goals rw [Supervisor.step, takeChunk_of_ne hg]
  | dies g => exact h.of_eq rfl rfl rfl rfl rfl
  | exit => exact h.of_eq rfl rfl (generation_stop s) (output_stop s) (store_stop s)
  | shutdown => exact h.of_eq rfl rfl (generation_stop s) (output_stop s) (store_stop s)

theorem Follows.run {s : Supervisor} {is : List Input} (h : s.Follows is)
    (history : List (UInt64 × Input)) : (s.run history).Follows (is ++ history.map (·.2)) := by
  induction history generalizing s is with
  | nil => simpa [Supervisor.run] using h
  | cons x history ih =>
    rw [List.map_cons, List.append_cons]
    exact ih (h.step x.1 x.2)

/-- The snapshot tells the lines that the chunks of the current generation complete. -/
theorem Follows.tells {s : Supervisor} {is : List Input} (h : s.Follows is) :
    s.store.current.Tells (Output.lines (current is)) := by
  have hshows := h.shows
  rw [Output.feedAll_eq] at hshows
  exact hshows.tells

/-! ## Late output -/

theorem generation_step (s : Supervisor) (now : UInt64) (i : Input) :
    (s.step now i).generation = s.generation + if i.isRestart then 1 else 0 := by
  cases i with
  | restart ok => exact generation_restart s ok now
  | chunk g p bs => exact generation_takeChunk s g p bs now
  | dies g => rfl
  | exit => exact generation_stop s
  | shutdown => exact generation_stop s

/-- Output of an earlier generation, however late it comes, changes nothing. -/
theorem run_filter_isUpTo {s : Supervisor} {g : Nat} (hg : g < s.generation)
    (history : List (UInt64 × Input)) :
    s.run (history.filter fun i => !i.2.isUpTo g) = s.run history := by
  induction history generalizing s with
  | nil => rfl
  | cons x history ih =>
    obtain ⟨now, i⟩ := x
    have hnext : g < (s.step now i).generation := by rw [generation_step]; omega
    cases hi : i.isUpTo g with
    | false =>
      rw [List.filter_cons_of_pos (by simp [hi])]
      exact ih hnext
    | true =>
      have hstep : s.step now i = s := by
        cases i with
        | chunk g' p bs =>
          have hle : g' ≤ g := by simpa [Input.isUpTo] using hi
          exact takeChunk_of_ne (by omega) p bs now
        | _ => cases hi
      rw [List.filter_cons_of_neg (by simp [hi]), ih hg]
      exact congrArg (·.run history) hstep.symm

/-! ## Ends of checkers -/

/-- Two supervisors that have come to the same generation, have read the same and have the same store,
whatever processes they hold. -/
structure Agrees (s s' : Supervisor) : Prop where
  generation : s.generation = s'.generation
  output : s.output = s'.output
  store : s.store = s'.store

theorem Agrees.step {s s' : Supervisor} (h : s.Agrees s') (now : UInt64) (i : Input) :
    (s.step now i).Agrees (s'.step now i) := by
  obtain ⟨hg, ho, hs⟩ := h
  cases i with
  | restart ok =>
    refine ⟨?_, ?_, ?_⟩
    · rw [Supervisor.step, Supervisor.step, generation_restart, generation_restart, hg]
    · rw [Supervisor.step, Supervisor.step, output_restart, output_restart]
    · rw [Supervisor.step, Supervisor.step, store_restart, store_restart, hs]
  | chunk g p bs =>
    simp only [Supervisor.step, takeChunk, hg, ho, hs]
    split
    · exact ⟨rfl, rfl, rfl⟩
    · exact ⟨hg, ho, hs⟩
  | dies g => exact ⟨hg, ho, hs⟩
  | exit | shutdown =>
    simp only [Supervisor.step, noticeExit_eq_stop]
    exact ⟨by rw [generation_stop, generation_stop, hg], by rw [output_stop, output_stop, ho],
      by rw [store_stop, store_stop, hs]⟩

theorem agrees_step_of_isEnd (s : Supervisor) (now : UInt64) {i : Input} (h : i.isEnd = true) :
    s.Agrees (s.step now i) := by
  cases i with
  | dies g => exact ⟨rfl, rfl, rfl⟩
  | exit => exact ⟨(generation_stop s).symm, (output_stop s).symm, (store_stop s).symm⟩
  | restart | chunk | shutdown => cases h

/-- Neither the ends of checkers nor the moments at which they are noticed matter. -/
theorem Agrees.run_filter_isEnd {s s' : Supervisor} (h : s.Agrees s')
    (history : List (UInt64 × Input)) :
    (s.run (history.filter fun i => !i.2.isEnd)).Agrees (s'.run history) := by
  induction history generalizing s s' with
  | nil => exact h
  | cons x history ih =>
    obtain ⟨now, i⟩ := x
    cases hi : i.isEnd with
    | false =>
      rw [List.filter_cons_of_pos (by simp [hi])]
      exact ih (h.step now i)
    | true =>
      rw [List.filter_cons_of_neg (by simp [hi])]
      have hend := agrees_step_of_isEnd s' now hi
      exact ih ⟨h.generation.trans hend.generation, h.output.trans hend.output, h.store.trans hend.store⟩

/-! ## Times -/

/-- Two supervisors that differ at most in the time of the last transition and in how many transitions
there were. -/
structure Alike (s s' : Supervisor) : Prop where
  generation : s.generation = s'.generation
  output : s.output = s'.output
  child : s.child = s'.child
  live : s.live = s'.live
  current : s.store.current.undated = s'.store.current.undated

theorem live_stop_congr {s s' : Supervisor} (hc : s.child = s'.child) (hl : s.live = s'.live) :
    s.stop.live = s'.stop.live := by
  rw [stop, stop, ← hc]
  cases s.child with
  | none => exact hl
  | some g => exact congrArg (·.filter (· != g)) hl

theorem alike_restart {s s' : Supervisor} (hg : s.generation = s'.generation)
    (hc : s.child = s'.child) (hl : s.live = s'.live) (ok : Bool) (now now' : UInt64) :
    (s.restart ok now).Alike (s'.restart ok now') := by
  refine ⟨?_, ?_, ?_, ?_, ?_⟩
  · rw [generation_restart, generation_restart, hg]
  · rw [output_restart, output_restart]
  · rw [child_restart, child_restart, hg]
  · rw [live_restart, live_restart, hg, live_stop_congr hc hl]
  · rw [store_restart, store_restart]
    rfl

theorem Alike.step {s s' : Supervisor} (h : s.Alike s') (now : UInt64) (i : Input) :
    (s.step now i).Alike (s'.step now i) := by
  obtain ⟨hg, ho, hc, hl, hs⟩ := h
  cases i with
  | restart ok => exact alike_restart hg hc hl ok now now
  | chunk g p bs =>
    simp only [Supervisor.step, takeChunk, hg, ho]
    split
    · exact ⟨rfl, rfl, hc, hl, Store.undated_publishAll hs _ now⟩
    · exact ⟨hg, ho, hc, hl, hs⟩
  | dies g => exact ⟨hg, ho, hc, congrArg (·.filter (· != g)) hl, hs⟩
  | exit | shutdown =>
    simp only [Supervisor.step, noticeExit_eq_stop]
    refine ⟨?_, ?_, ?_, live_stop_congr hc hl, ?_⟩
    · rw [generation_stop, generation_stop, hg]
    · rw [output_stop, output_stop, ho]
    · rw [child_stop, child_stop]
    · rw [store_stop, store_stop, hs]

theorem Alike.run {s s' : Supervisor} (h : s.Alike s') (history : List (UInt64 × Input)) :
    (s.run history).Alike (s'.run history) := by
  induction history generalizing s s' with
  | nil => exact h
  | cons x history ih => exact ih (h.step x.1 x.2)

/-- A chunk of a generation that has begun and a restart come to the same in either order. -/
theorem alike_chunk_restart (s : Supervisor) {g : Nat} (hg : g ≤ s.generation) (p : Pipe) (bs : Bytes)
    (ok : Bool) (t t' u u' : UInt64) :
    ((s.step t (.chunk g p bs)).step t' (.restart ok)).Alike
      ((s.step u (.restart ok)).step u' (.chunk g p bs)) := by
  have hlate : (s.restart ok u).takeChunk g p bs u' = s.restart ok u :=
    takeChunk_of_ne (by rw [generation_restart]; omega) p bs u'
  simp only [Supervisor.step, hlate]
  exact alike_restart (generation_takeChunk s g p bs t) (child_takeChunk s g p bs t)
    (live_takeChunk s g p bs t) ok t' u

/-! ## The law -/

/-- What a history determines of a supervisor, and what it does not depend on. -/
structure SnapshotLaw (s : Supervisor) (is : List Input) : Prop where
  generation : s.generation = generationAfter is
  /-- What has been read is what a new reader makes of the chunks of the current generation. -/
  output : s.output = (Output.feedAll {} (current is)).1
  /-- The snapshot tells the lines that these chunks complete. -/
  tells : s.store.current.Tells (Output.lines (current is))
  /-- A restart forgets all that was read, and no later output of the generations so far has any
  influence. -/
  forgets (ok : Bool) (now : UInt64) (later : List (UInt64 × Input)) :
    (s.restart ok now).output = {} ∧ (s.restart ok now).store.current = .blank now ∧
      (s.restart ok now).run later =
        (s.restart ok now).run (later.filter fun i => !i.2.isUpTo s.generation)
  /-- A chunk and a restart that are both due lead to the same in either order, whatever follows. -/
  commutes (g : Nat) (hg : g ≤ s.generation) (p : Pipe) (bs : Bytes) (ok : Bool) (t t' u u' : UInt64)
    (later : List (UInt64 × Input)) :
    (((s.step t (.chunk g p bs)).step t' (.restart ok)).run later).Alike
      (((s.step u (.restart ok)).step u' (.chunk g p bs)).run later)
  /-- Whether and when the end of a checker is noticed matters to nothing that is read or told. -/
  ignoresEnds (later : List (UInt64 × Input)) :
    (s.run (later.filter fun i => !i.2.isEnd)).Agrees (s.run later)

/-- **The snapshot law**: after any history of restarts, chunks of any generations, ends of checkers
and failures to start one, what has been read and what clients are told is determined by the chunks of
the current generation alone. -/
theorem snapshotLaw_run (t₀ : UInt64) (ok : Bool) (history : List (UInt64 × Input)) :
    ((launched t₀ ok).run history).SnapshotLaw (history.map (·.2)) := by
  have h : ((launched t₀ ok).run history).Follows (history.map (·.2)) := by
    simpa using (follows_launched t₀ ok).run history
  refine ⟨h.generation, h.output, h.tells, ?_, ?_, ?_⟩
  · intro ok' now later
    refine ⟨output_restart _ ok' now, by rw [store_restart]; rfl, ?_⟩
    rw [run_filter_isUpTo]
    rw [generation_restart]
    omega
  · intro g hg p bs ok' t t' u u' later
    exact (alike_chunk_restart _ hg p bs ok' t t' u u').run later
  · intro later
    exact Agrees.run_filter_isEnd ⟨rfl, rfl, rfl⟩ later

end Supervisor

end WarmCheck

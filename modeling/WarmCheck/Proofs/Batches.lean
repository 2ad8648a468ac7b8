import Mathlib.Data.List.SplitBy
import WarmCheck.Watch.Batch

/-!
# Runs of arrivals

Whoever asks for batches loses no event, and one who asks in time gets the runs of arrivals between which no window
passes.

* `Feed.runs`, `Feed.batchOf`: runs of arrivals, and the batch that a run makes; `Feed.IsInRuns`: what makes a run.
* `Batch.endedBy`: a batch that is not kept open when the source closes.
* `Feed.split_of_next`: a batch takes the first items, and leaves the others.
* **`Feed.next_of_runs`**: the next batch is the first run.
* **`Feed.batches_eq_runs`**: the batches are the runs, until the source has closed and nothing is left.
-/

namespace WarmCheck.Watch

/-- A batch that is handed over when the source closes, if it is still open then. -/
def Batch.endedBy {ε : Type} (close : Nat) (b : Batch ε) : Batch ε := { b with time := min b.time close }

theorem Batch.endedBy_at_le {ε : Type} (close : Nat) (b : Batch ε) : (b.endedBy close).time ≤ close :=
  Nat.min_le_right ..

namespace Feed

variable {ε : Type} {window close now : Nat}

/-- The longest stretches of items in which each arrives before the window after the one before it has passed. -/
def runs (window : Nat) (items : List (Nat × Option ε)) : List (List (Nat × Option ε)) :=
  items.splitBy fun i j => decide (j.1 < i.1 + window)

/-- The batch of a run: its events, at the time at which the window after its last item has passed. -/
def batchOf (window : Nat) (run : List (Nat × Option ε)) : Batch ε :=
  ⟨run.getLast?.elim 0 (·.1) + window, run.filterMap (·.2)⟩

theorem filterMap_cons_snd (i : Nat × Option ε) (items : List (Nat × Option ε)) :
    (i :: items).filterMap (·.2) = i.2.toList ++ items.filterMap (·.2) := by
  obtain ⟨arrival, item⟩ := i
  cases item <;> rfl

theorem arrivesIn_iff (hwindow : 0 < window) {arrival : Nat} :
    arrivesIn window now arrival = true ↔ arrival < now + window := by
  rw [arrivesIn, Bool.or_eq_true, decide_eq_true_iff, decide_eq_true_iff]
  omega

/-! ## What a batch takes -/

/-- A batch takes the first items, and is handed over no sooner than it is asked for. -/
theorem split_of_gather (window close now : Nat) (items : List (Nat × Option ε)) :
    ∃ taken, items = taken ++ (gather window close now items).2.2 ∧
      (gather window close now items).1 = taken.filterMap (·.2) ∧ now ≤ (gather window close now items).2.1 := by
  induction items generalizing now with
  | nil =>
    refine ⟨[], rfl, rfl, ?_⟩
    simp only [gather]
    split <;> omega
  | cons i items ih =>
    by_cases hin : arrivesIn window now i.1 = true
    · obtain ⟨taken, hitems, hevents, htime⟩ := ih (max now i.1)
      simp only [gather, hin, if_true]
      refine ⟨i :: taken, ?_, ?_, Nat.le_trans (Nat.le_max_left now i.1) htime⟩
      · rw [List.cons_append, ← hitems]
      · rw [filterMap_cons_snd, ← hevents]
    · simp only [gather, hin, if_false, Bool.false_eq_true]
      exact ⟨[], rfl, rfl, Nat.le_add_right now window⟩

theorem split_of_next {f g : Feed ε} {b : Batch ε} (h : f.next window now = some (b, g)) :
    ∃ taken, f.items = taken ++ g.items ∧ b.events = taken.filterMap (·.2) ∧ now ≤ b.time := by
  rw [next] at h
  cases hitems : f.items with
  | nil => rw [hitems] at h; cases h
  | cons i items =>
    rw [hitems] at h
    cases h
    obtain ⟨taken, hsplit, hevents, htime⟩ := split_of_gather window f.close (max now i.1) items
    refine ⟨i :: taken, ?_, ?_, Nat.le_trans (Nat.le_max_left now i.1) htime⟩
    · rw [List.cons_append, ← hsplit]
    · rw [filterMap_cons_snd, ← hevents]

theorem next_eq_none_iff {f : Feed ε} : f.next window now = none ↔ f.items = [] := by
  rw [next]
  cases f.items <;> simp

/-! ## Runs -/

theorem runs_eq_nil_iff {items : List (Nat × Option ε)} : runs window items = [] ↔ items = [] :=
  List.splitBy_eq_nil

/-- Items cut into runs: within a run each arrives before the window after the one before it has passed, and between
runs the window passes. -/
structure IsInRuns (window : Nat) (items : List (Nat × Option ε)) (rs : List (List (Nat × Option ε))) : Prop where
  flatten : rs.flatten = items
  nil_notMem : [] ∉ rs
  close : ∀ run ∈ rs, run.IsChain fun i j => j.1 < i.1 + window
  apart : rs.IsChain fun run next => ∀ last ∈ run.getLast?, ∀ first ∈ next.head?, last.1 + window ≤ first.1

theorem isInRuns_runs (window : Nat) (items : List (Nat × Option ε)) : IsInRuns window items (runs window items) where
  flatten := List.flatten_splitBy _ _
  nil_notMem := List.nil_notMem_splitBy _ _
  close run hrun := by simpa using List.isChain_of_mem_splitBy hrun
  apart := by
    refine (List.isChain_getLast_head_splitBy _ items).imp ?_
    intro run next ⟨hrun, hnext, hfar⟩ last hlast first hfirst
    rw [List.getLast?_eq_some_getLast hrun] at hlast
    rw [List.head?_eq_some_head hnext] at hfirst
    cases hlast
    cases hfirst
    simpa using hfar

/-- The first run, and what is left after it. -/
theorem split_of_runs {items run : List (Nat × Option ε)} {rest : List (List (Nat × Option ε))}
    (h : runs window items = run :: rest) :
    items = run ++ rest.flatten ∧ runs window rest.flatten = rest ∧ ∃ first more, run = first :: more ∧
      run.IsChain (fun i j => j.1 < i.1 + window) ∧
      ∀ last ∈ run.getLast?, ∀ i ∈ rest.flatten.head?, last.1 + window ≤ i.1 := by
  obtain ⟨hitems, hnil, hchain, hgap⟩ := List.splitBy_eq_iff.mp h
  have hruns : IsInRuns window items (run :: rest) := h ▸ isInRuns_runs window items
  rw [List.mem_cons, not_or] at hnil
  have hrest : runs window rest.flatten = rest :=
    List.splitBy_flatten hnil.2 (fun m hm => hchain m (List.mem_cons_of_mem run hm)) hgap.tail
  obtain ⟨first, more, rfl⟩ := List.exists_cons_of_ne_nil (Ne.symm hnil.1)
  refine ⟨hitems, hrest, first, more, rfl, hruns.close _ List.mem_cons_self, fun last hlast i hi => ?_⟩
  cases rest with
  | nil => cases hi
  | cons next rest =>
    have hnext : next ≠ [] := fun heq => hnil.2 (heq ▸ List.mem_cons_self)
    rw [List.flatten_cons, List.head?_append_of_ne_nil _ hnext] at hi
    exact (List.isChain_cons_cons.mp hruns.apart).1 last hlast i hi

/-- A batch that is open when an item arrives takes the rest of the run that the item belongs to. -/
theorem gather_of_run (hwindow : 0 < window) {first : Nat × Option ε} {more left : List (Nat × Option ε)}
    (htimed : (first :: more).Pairwise (·.1 ≤ ·.1)) (hchain : (first :: more).IsChain fun i j => j.1 < i.1 + window)
    (hgap : ∀ last ∈ (first :: more).getLast?, ∀ i ∈ left.head?, last.1 + window ≤ i.1)
    (hopen : ∀ i ∈ first :: more ++ left, i.1 ≤ close) :
    gather window close first.1 (more ++ left) =
      (more.filterMap (·.2), ((batchOf window (first :: more)).endedBy close).time, left) := by
  induction more generalizing first with
  | nil =>
    have hlast : first ∈ [first].getLast? := rfl
    have hend : ((batchOf window [first]).endedBy close).time = min (first.1 + window) close := rfl
    cases left with
    | nil =>
      have hclose : first.1 ≤ close := hopen first List.mem_cons_self
      simp only [List.append_nil, gather, hend]
      refine Prod.ext rfl (Prod.ext ?_ rfl)
      split <;> simp only <;> omega
    | cons i left =>
      have hfar : first.1 + window ≤ i.1 := hgap first hlast i rfl
      have hclose : i.1 ≤ close := hopen i (by simp)
      have hout : arrivesIn window first.1 i.1 ≠ true := by
        rw [Ne, arrivesIn_iff hwindow]
        exact Nat.not_lt.mpr hfar
      simp only [List.nil_append, gather, hout, hend, Nat.min_eq_left (hfar.trans hclose)]
      rfl
  | cons next more ih =>
    -- The batch stays open as from the item that has just joined it.
    rw [List.isChain_cons_cons] at hchain
    have hlater : first.1 ≤ next.1 := (List.pairwise_cons.mp htimed).1 next List.mem_cons_self
    have hin : arrivesIn window first.1 next.1 = true := (arrivesIn_iff hwindow).mpr hchain.1
    rw [List.getLast?_cons_cons] at hgap
    have hnext := ih (List.pairwise_cons.mp htimed).2 hchain.2 hgap fun i hi => hopen i (List.mem_cons_of_mem first hi)
    simp only [List.cons_append, gather, hin, if_true, Nat.max_eq_right hlater, hnext, filterMap_cons_snd]
    rw [batchOf, batchOf, List.getLast?_cons_cons]
    rfl

/-- **The next batch is the first run**, for one who asks before its first item arrives. What is left arrives no
sooner than the batch is handed over. -/
theorem next_of_runs {items run : List (Nat × Option ε)} {rest : List (List (Nat × Option ε))}
    (hwindow : 0 < window) (htimed : items.Pairwise (·.1 ≤ ·.1)) (hearly : ∀ i ∈ items, now ≤ i.1)
    (hopen : ∀ i ∈ items, i.1 ≤ close) (hruns : runs window items = run :: rest) :
    next window ⟨items, close⟩ now = some ((batchOf window run).endedBy close, ⟨rest.flatten, close⟩) ∧
      runs window rest.flatten = rest ∧ ∀ i ∈ rest.flatten, (batchOf window run).time ≤ i.1 := by
  obtain ⟨rfl, hrest, first, more, rfl, hchain, hgap⟩ := split_of_runs hruns
  obtain ⟨htimedRun, htimedRest, -⟩ := List.pairwise_append.mp htimed
  refine ⟨?_, hrest, fun i hi => ?_⟩
  · have hnow : max now first.1 = first.1 := Nat.max_eq_right (hearly first List.mem_cons_self)
    have hgather := gather_of_run hwindow htimedRun hchain hgap hopen
    simp only [next, List.cons_append, hnow, hgather]
    rw [← filterMap_cons_snd]
    rfl
  · -- the first item that is left comes after the window, and the others come later
    obtain ⟨last, hlast⟩ := Option.isSome_iff_exists.mp (List.getLast?_isSome.mpr (List.cons_ne_nil first more))
    cases hleft : rest.flatten with
    | nil => rw [hleft] at hi; cases hi
    | cons j left =>
      rw [hleft] at hi htimedRest
      have hj : last.1 + window ≤ j.1 := hgap last hlast j (by rw [hleft]; rfl)
      have hij : j.1 ≤ i.1 := by
        rcases List.mem_cons.mp hi with rfl | hi
        · exact Nat.le_refl _
        · exact (List.pairwise_cons.mp htimedRest).1 i hi
      rw [batchOf, hlast]
      exact Nat.le_trans hj hij

/-! ## All batches -/

theorem batches_of_next_eq_none {f : Feed ε} (h : f.next window now = none) :
    batches window f now = ([], max now f.close) := by
  rw [batches]
  split
  · rfl
  · next hsome => rw [h] at hsome; cases hsome

theorem batches_of_next {f g : Feed ε} {b : Batch ε} (h : f.next window now = some (b, g)) :
    batches window f now = (b :: (batches window g b.time).1, (batches window g b.time).2) := by
  rw [batches]
  split
  · next hnone => rw [h] at hnone; cases hnone
  · next b' g' hsome => rw [h] at hsome; cases hsome; rfl

/-- No batch loses an item or takes one twice, for whoever asks. -/
theorem flatMap_events_batches (window : Nat) (f : Feed ε) (now : Nat) :
    (batches window f now).1.flatMap (·.events) = f.items.filterMap (·.2) := by
  fun_induction batches window f now with
  | case1 f now hnone =>
    rw [next_eq_none_iff] at hnone
    rw [hnone]
    rfl
  | case2 f now b g hnext hlength bs closed hmore ih =>
    obtain ⟨taken, hitems, hevents, -⟩ := split_of_next hnext
    rw [hmore] at ih
    rw [List.flatMap_cons, ih, hevents, hitems, List.filterMap_append]

/-- The batches of one who asks before the first item arrives, and asks again at once. -/
theorem batches_of_runs (hwindow : 0 < window) {rs : List (List (Nat × Option ε))} :
    ∀ {now : Nat} {items : List (Nat × Option ε)}, items.Pairwise (·.1 ≤ ·.1) → (∀ i ∈ items, now ≤ i.1) →
      (∀ i ∈ items, i.1 ≤ close) → runs window items = rs →
        batches window ⟨items, close⟩ now = (rs.map fun run => (batchOf window run).endedBy close, max now close) := by
  induction rs with
  | nil =>
    intro now items _ _ _ hruns
    exact batches_of_next_eq_none (next_eq_none_iff.mpr (runs_eq_nil_iff.mp hruns))
  | cons run rest ih =>
    intro now items htimed hearly hopen hruns
    obtain ⟨hnext, hrest, hlate⟩ := next_of_runs hwindow htimed hearly hopen hruns
    obtain ⟨rfl, -, first, more, rfl, -⟩ := split_of_runs hruns
    have hlater : ∀ i ∈ rest.flatten, ((batchOf window (first :: more)).endedBy close).time ≤ i.1 := fun i hi =>
      (Nat.min_le_left ..).trans (hlate i hi)
    have hmore := ih (List.pairwise_append.mp htimed).2.1 hlater
      (fun i hi => hopen i (List.mem_append_right _ hi)) hrest
    have hfirst := List.mem_append_left rest.flatten (List.mem_cons_self (a := first) (l := more))
    have hnow : now ≤ close := (hearly first hfirst).trans (hopen first hfirst)
    rw [batches_of_next hnext, hmore, List.map_cons, Nat.max_eq_right hnow, Nat.max_eq_right (Batch.endedBy_at_le ..)]

/-- **The batches are the runs.** Whoever asks before the first item arrives, and again as soon as a batch is there,
gets the runs in order, each with its events, when the window after its last item has passed or the source closes.
Nothing more comes when the source has closed, and by then each event has come once and in its place. -/
theorem batches_eq_runs {items : List (Nat × Option ε)} (hwindow : 0 < window) (htimed : items.Pairwise (·.1 ≤ ·.1))
    (hearly : ∀ i ∈ items, now ≤ i.1) (hopen : ∀ i ∈ items, i.1 ≤ close) :
    IsInRuns window items (runs window items) ∧
      batches window ⟨items, close⟩ now =
        ((runs window items).map fun run => (batchOf window run).endedBy close, max now close) ∧
      (batches window ⟨items, close⟩ now).1.flatMap (·.events) = items.filterMap (·.2) :=
  ⟨isInRuns_runs window items, batches_of_runs hwindow htimed hearly hopen rfl, flatMap_events_batches window _ now⟩

/-- Two items at once, one of them an error; an error by itself; and an event whose window the source does not
outlast. -/
theorem batches_of_three_runs :
    let items : List (Nat × Option Char) := [(5, some 'a'), (5, none), (104, some 'b'), (250, none), (400, some 'c')]
    (0 < 100 ∧ items.Pairwise (·.1 ≤ ·.1) ∧ (∀ i ∈ items, 0 ≤ i.1) ∧ ∀ i ∈ items, i.1 ≤ 450) ∧
      batches 100 ⟨items, 450⟩ 0 = ([⟨204, ['a', 'b']⟩, ⟨350, []⟩, ⟨450, ['c']⟩], 450) := by
  intro items
  have htimed : items.Pairwise (·.1 ≤ ·.1) := by decide
  have hearly : ∀ i ∈ items, 0 ≤ i.1 := by decide
  have hopen : ∀ i ∈ items, i.1 ≤ 450 := by decide
  obtain ⟨-, hbatches, -⟩ := batches_eq_runs (Nat.zero_lt_succ 99) htimed hearly hopen
  exact ⟨⟨by decide, htimed, hearly, hopen⟩, hbatches.trans (by decide)⟩

/-! ## Sources that stay open -/

theorem le_close_lasting (now : Nat) (items : List (Nat × Option ε)) :
    ∀ i ∈ items, i.1 + window ≤ (lasting window now items).close := by
  intro i hi
  have hmax : i.1 ≤ (items.map (·.1)).foldr max now := by
    induction items with
    | nil => cases hi
    | cons j items ih =>
      rw [List.map_cons, List.foldr_cons]
      rcases List.mem_cons.mp hi with rfl | hi
      · exact Nat.le_max_left ..
      · exact Nat.le_trans (ih hi) (Nat.le_max_right ..)
  exact Nat.add_le_add_right hmax window

/-- The next batch of a source that stays open is kept open until the window has passed. -/
theorem next_of_runs_lasting {items run : List (Nat × Option ε)} {rest : List (List (Nat × Option ε))}
    (hwindow : 0 < window) (htimed : items.Pairwise (·.1 ≤ ·.1)) (hearly : ∀ i ∈ items, now ≤ i.1)
    (hruns : runs window items = run :: rest) :
    next window (lasting window now items) now =
        some (batchOf window run, ⟨rest.flatten, (lasting window now items).close⟩) ∧
      runs window rest.flatten = rest ∧ ∀ i ∈ rest.flatten, (batchOf window run).time ≤ i.1 := by
  have hlate : ∀ i ∈ items, i.1 + window ≤ (lasting window now items).close := le_close_lasting now items
  have hopen : ∀ i ∈ items, i.1 ≤ _ := fun i hi => (Nat.le_add_right ..).trans (hlate i hi)
  obtain ⟨hnext, hrest⟩ := next_of_runs hwindow htimed hearly hopen hruns
  refine ⟨hnext.trans ?_, hrest⟩
  obtain ⟨rfl, -, first, more, rfl, -⟩ := split_of_runs hruns
  obtain ⟨last, hlast⟩ := Option.isSome_iff_exists.mp (List.getLast?_isSome.mpr (List.cons_ne_nil first more))
  have hopen : (batchOf window (first :: more)).time ≤ (lasting window now (first :: more ++ rest.flatten)).close := by
    rw [batchOf, hlast]
    exact hlate last (List.mem_append_left _ (List.mem_of_getLast? hlast))
  rw [Batch.endedBy, Nat.min_eq_left hopen]

end Feed

end WarmCheck.Watch

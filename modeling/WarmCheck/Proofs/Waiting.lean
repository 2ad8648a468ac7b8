import Mathlib.Data.List.Chain
import WarmCheck.Wait

/-!
# Waits

A wait is judged by its queries: how many there are, when they begin, and what each of them yields.

* `Wait.queries`: the queries that a wait makes; `Wait.runFrom_eq`: how it ends is what it makes of the last one.
* `Wait.queriesFrom_congr`: a wait depends on nothing but the answers to its queries.
* `Wait.length_queriesFrom_mul_le`, `Wait.le_ceiling_of_mem`: how many queries there are, and when they begin.
* `Wait.end_le_of_peers`: when a wait ends, whatever the other side does.
* `Wait.runFrom_of_grid`: queries that take no time.
* **`Wait.isPunctual_run`**: all of this for a whole wait.
-/

namespace WarmCheck.Wait

variable {p : Plan} {ask : Answers} {n now next : Nat} {r : Query.Result} {s : Snapshot}

theorem wake_eq (t : Nat) : Clock.wake {} t = t := by
  show (if t % 1 = 0 then t else _) = t
  rw [if_pos (Nat.mod_one t)]

/-! ## Queries -/

/-- The other side answers that its cycle is not finished. -/
def IsRunning (r : Query.Result) : Prop := ∃ s, r.snapshot = some s ∧ s.isComplete = false

/-- What a wait makes of its last query. -/
def outcomeOf (r : Query.Result) : Outcome :=
  match r.snapshot with
  | none => .noDaemon
  | some s => if s.isComplete then .complete s else .timedOut s

/-- When a wait asks again after a query that has begun at `now`; never if that is its last one. -/
def Plan.again? (p : Plan) (now : Nat) (r : Query.Result) : Option Nat :=
  match r.snapshot with
  | none => none
  | some s =>
    let next := p.clock.wake (now + r.elapsed + p.poll)
    if s.isComplete = false ∧ now + r.elapsed + p.poll ≤ p.ceiling ∧ now < next then some next else none

theorem again?_eq_some_iff : p.again? now r = some next ↔
    IsRunning r ∧ now + r.elapsed + p.poll ≤ p.ceiling ∧ now < next ∧
      next = p.clock.wake (now + r.elapsed + p.poll) := by
  rw [Plan.again?, IsRunning]
  cases r.snapshot with
  | none => simp
  | some s =>
    simp only [Option.ite_none_right_eq_some, Option.some.injEq, exists_eq_left']
    constructor
    · rintro ⟨⟨hrunning, htime, hlater⟩, rfl⟩
      exact ⟨hrunning, htime, hlater, rfl⟩
    · rintro ⟨hrunning, htime, hlater, rfl⟩
      exact ⟨⟨hrunning, htime, hlater⟩, rfl⟩

/-- The queries of a wait from the `n`-th on, with the times at which they begin. -/
def queriesFrom (p : Plan) (ask : Answers) (n now : Nat) : List (Nat × Query.Result) :=
  match h : p.again? now (ask n now) with
  | none => [(now, ask n now)]
  | some next => (now, ask n now) :: queriesFrom p ask (n + 1) next
termination_by p.ceiling + 1 - now
decreasing_by
  obtain ⟨-, htime, hlater, -⟩ := again?_eq_some_iff.mp h
  omega

/-- The queries of a whole wait. -/
def queries (p : Plan) (ask : Answers) : List (Nat × Query.Result) := queriesFrom p ask 0 0

theorem queriesFrom_of_last (h : p.again? now (ask n now) = none) : queriesFrom p ask n now = [(now, ask n now)] := by
  rw [queriesFrom]
  split
  · rfl
  · next hsome => rw [h] at hsome; cases hsome

theorem queriesFrom_of_again (h : p.again? now (ask n now) = some next) :
    queriesFrom p ask n now = (now, ask n now) :: queriesFrom p ask (n + 1) next := by
  rw [queriesFrom]
  split
  · next hnone => rw [h] at hnone; cases hnone
  · next next' hsome => rw [h] at hsome; cases hsome; rfl

theorem runFrom_of_last (h : p.again? now (ask n now) = none) :
    runFrom p ask n now = (outcomeOf (ask n now), now + (ask n now).elapsed) := by
  rw [runFrom, outcomeOf]
  cases hs : (ask n now).snapshot with
  | none => rfl
  | some s =>
    rw [Plan.again?, hs] at h
    simp only [ite_eq_right_iff, reduceCtorEq, imp_false, not_and, Nat.not_lt] at h
    cases hc : s.isComplete with
    | true => simp only [hc, if_true]
    | false =>
      simp only [hc, Bool.false_eq_true, if_false]
      split
      · rfl
      · next htime => rw [if_neg (Nat.not_lt.mpr (h hc (Nat.not_lt.mp htime)))]

theorem runFrom_of_again (h : p.again? now (ask n now) = some next) :
    runFrom p ask n now = runFrom p ask (n + 1) next := by
  obtain ⟨⟨s, hs, hc⟩, htime, hlater, rfl⟩ := again?_eq_some_iff.mp h
  rw [runFrom]
  simp only [hs, hc, Nat.not_lt.mpr htime, hlater, Bool.false_eq_true, if_false, if_true]

/-- **How a wait ends is what it makes of its last query.** It asks again after all others, and not after that. -/
theorem runFrom_eq (p : Plan) (ask : Answers) (n now : Nat) :
    ∃ init t r, queriesFrom p ask n now = init ++ [(t, r)] ∧ runFrom p ask n now = (outcomeOf r, t + r.elapsed) ∧
      p.again? t r = none ∧ ∀ q ∈ init, p.again? q.1 q.2 ≠ none := by
  fun_induction queriesFrom p ask n now with
  | case1 n now h => exact ⟨[], now, ask n now, rfl, runFrom_of_last h, h, fun _ hq => by cases hq⟩
  | case2 n now next h ih =>
    obtain ⟨init, t, r, hqueries, hrun, hlast, hinit⟩ := ih
    refine ⟨(now, ask n now) :: init, t, r, by rw [hqueries]; rfl, (runFrom_of_again h).trans hrun, hlast, ?_⟩
    intro q hq
    rcases List.mem_cons.mp hq with rfl | hq
    · simp [h]
    · exact hinit q hq

theorem head?_queriesFrom (p : Plan) (ask : Answers) (n now : Nat) :
    (queriesFrom p ask n now).head? = some (now, ask n now) := by
  rw [queriesFrom]
  split <;> rfl

theorem answer_of_getElem? {i : Nat} {q : Nat × Query.Result} (h : (queriesFrom p ask n now)[i]? = some q) :
    ask (n + i) q.1 = q.2 := by
  fun_induction queriesFrom p ask n now generalizing i with
  | case1 n now =>
    cases i with
    | zero => cases h; rfl
    | succ i => cases h
  | case2 n now next _ ih =>
    cases i with
    | zero => cases h; rfl
    | succ i =>
      have hi := ih h
      rwa [Nat.add_right_comm] at hi

/-- Answers that are the same for the queries of a wait make for the same queries and the same end. -/
theorem queriesFrom_congr {ask' : Answers}
    (h : ∀ i q, (queriesFrom p ask n now)[i]? = some q → ask' (n + i) q.1 = q.2) :
    queriesFrom p ask' n now = queriesFrom p ask n now ∧ runFrom p ask' n now = runFrom p ask n now := by
  fun_induction queriesFrom p ask n now with
  | case1 n now hlast =>
    have hsame : ask' n now = ask n now := h 0 _ rfl
    rw [← hsame] at hlast
    exact ⟨by rw [queriesFrom_of_last hlast, hsame],
      by rw [runFrom_of_last hlast, runFrom_of_last (hsame ▸ hlast), hsame]⟩
  | case2 n now next hagain ih =>
    have hsame : ask' n now = ask n now := h 0 _ rfl
    have hagain' : p.again? now (ask' n now) = some next := hsame ▸ hagain
    have hlater : ∀ i q, (queriesFrom p ask (n + 1) next)[i]? = some q → ask' (n + 1 + i) q.1 = q.2 := by
      intro i q hq
      rw [Nat.add_right_comm]
      exact h (i + 1) q hq
    obtain ⟨hqueries, hrun⟩ := ih hlater
    exact ⟨by rw [queriesFrom_of_again hagain', hqueries, hsame],
      by rw [runFrom_of_again hagain', runFrom_of_again hagain, hrun]⟩

/-! ## Times -/

section Times

variable (hclock : p.clock = {})
include hclock

theorem le_ceiling_of_mem (hnow : now ≤ p.ceiling) : ∀ q ∈ queriesFrom p ask n now, q.1 ≤ p.ceiling := by
  fun_induction queriesFrom p ask n now with
  | case1 n now => exact List.forall_mem_singleton.mpr hnow
  | case2 n now next h ih =>
    obtain ⟨-, htime, -, hnext⟩ := again?_eq_some_iff.mp h
    rw [hclock, wake_eq] at hnext
    exact List.forall_mem_cons.mpr ⟨hnow, ih (hnext ▸ htime)⟩

/-- Each query but the last takes at least the pause after it out of the time that there is. -/
theorem length_queriesFrom_mul_le (hnow : now ≤ p.ceiling) :
    now + (queriesFrom p ask n now).length * p.poll ≤ p.ceiling + p.poll := by
  fun_induction queriesFrom p ask n now with
  | case1 n now =>
    rw [List.length_singleton, Nat.one_mul]
    omega
  | case2 n now next h ih =>
    obtain ⟨-, htime, -, hnext⟩ := again?_eq_some_iff.mp h
    rw [hclock, wake_eq] at hnext
    -- The next query begins a whole pause later, or more if this one has taken time.
    have hmore := ih (hnext ▸ htime)
    rw [List.length_cons, Nat.succ_mul]
    omega

/-- Each query begins one pause after the end of the one before it. -/
theorem isChain_queriesFrom (ask : Answers) (n now : Nat) :
    (queriesFrom p ask n now).IsChain fun q q' => q'.1 = q.1 + q.2.elapsed + p.poll := by
  fun_induction queriesFrom p ask n now with
  | case1 n now => exact List.isChain_singleton _
  | case2 n now next h ih =>
    obtain ⟨-, -, -, hnext⟩ := again?_eq_some_iff.mp h
    rw [hclock, wake_eq] at hnext
    refine List.isChain_cons.mpr ⟨fun q hq => ?_, ih⟩
    rw [head?_queriesFrom] at hq
    cases hq
    exact hnext

/-- Queries that take no time begin one pause after the other. -/
theorem time_of_getElem? (hinstant : ∀ n t, (ask n t).elapsed = 0) {i : Nat} {q : Nat × Query.Result}
    (h : (queriesFrom p ask n now)[i]? = some q) : q.1 = now + i * p.poll := by
  fun_induction queriesFrom p ask n now generalizing i with
  | case1 n now =>
    cases i with
    | zero => cases h; omega
    | succ i => cases h
  | case2 n now next hagain ih =>
    obtain ⟨-, -, -, hnext⟩ := again?_eq_some_iff.mp hagain
    rw [hclock, wake_eq, hinstant] at hnext
    cases i with
    | zero => cases h; omega
    | succ i =>
      rw [ih h, Nat.succ_mul]
      omega

/-- Queries that take no time find the first snapshot of a finished cycle, if there is still time for it. -/
theorem runFrom_of_grid (hpoll : 0 < p.poll) (hinstant : ∀ n t, (ask n t).elapsed = 0) {m : Nat}
    (htime : now + m * p.poll ≤ p.ceiling) (hrunning : ∀ i < m, IsRunning (ask (n + i) (now + i * p.poll)))
    (hanswer : (ask (n + m) (now + m * p.poll)).snapshot = some s) (hcomplete : s.isComplete = true) :
    runFrom p ask n now = (.complete s, now + m * p.poll) := by
  induction m generalizing n now with
  | zero =>
    rw [Nat.zero_mul, Nat.add_zero, Nat.add_zero] at hanswer
    have hlast : p.again? now (ask n now) = none := by
      rw [Option.eq_none_iff_forall_ne_some]
      intro next h
      obtain ⟨⟨s', hs', hc⟩, -⟩ := again?_eq_some_iff.mp h
      rw [hanswer] at hs'
      cases hs'
      exact Bool.false_ne_true (hc.symm.trans hcomplete)
    rw [runFrom_of_last hlast, outcomeOf, hanswer, hinstant, Nat.zero_mul]
    simp only [hcomplete, if_true]
  | succ m ih =>
    rw [Nat.succ_mul] at htime hanswer
    have hfirst : IsRunning (ask n now) := by
      have hzero := hrunning 0 (Nat.succ_pos m)
      rwa [Nat.zero_mul] at hzero
    have hagain : p.again? now (ask n now) = some (now + p.poll) := by
      refine again?_eq_some_iff.mpr ⟨hfirst, ?_, by omega, by rw [hclock, wake_eq, hinstant]; rfl⟩
      rw [hinstant]
      omega
    have hgrid : ∀ i, now + p.poll + i * p.poll = now + (i + 1) * p.poll := fun i => by rw [Nat.succ_mul]; omega
    rw [runFrom_of_again hagain, ih]
    · rw [hgrid]
    · omega
    · intro i hi
      rw [hgrid, Nat.add_assoc n 1 i, Nat.add_comm 1 i]
      exact hrunning (i + 1) (Nat.succ_lt_succ hi)
    · rw [hgrid, Nat.add_assoc n 1 m, Nat.add_comm 1 m, Nat.succ_mul]
      exact hanswer

end Times

/-! ## Ends -/

theorem outcomeOf_eq_complete_iff : outcomeOf r = .complete s ↔ r.snapshot = some s ∧ s.isComplete = true := by
  rw [outcomeOf]
  cases r.snapshot with
  | none => simp
  | some s' => cases hc : s'.isComplete <;> simp [hc] <;> rintro rfl <;> exact hc

theorem outcomeOf_eq_noDaemon_iff : outcomeOf r = .noDaemon ↔ r.snapshot = none := by
  rw [outcomeOf]
  cases r.snapshot with
  | none => simp
  | some s' => cases hc : s'.isComplete <;> simp [hc]

theorem outcomeOf_eq_timedOut_iff : outcomeOf r = .timedOut s ↔ r.snapshot = some s ∧ s.isComplete = false := by
  rw [outcomeOf]
  cases r.snapshot with
  | none => simp
  | some s' => cases hc : s'.isComplete <;> simp [hc] <;> rintro rfl <;> exact hc

/-- The last query of a wait decides how it ends, and all others have been answered while the cycle was running. -/
theorem run_eq_iff {o : Outcome} {P : Nat → Query.Result → Prop}
    (h : ∀ t r, p.again? t r = none → (outcomeOf r = o ↔ P t r)) :
    (run p ask).1 = o ↔
      ∃ init t r, queries p ask = init ++ [(t, r)] ∧ (∀ q ∈ init, IsRunning q.2) ∧ P t r := by
  obtain ⟨init, t, r, hqueries, hrun, hlast, hinit⟩ := runFrom_eq p ask 0 0
  have hrun : (run p ask).1 = outcomeOf r := congrArg Prod.fst hrun
  rw [hrun, h t r hlast]
  constructor
  · intro hP
    refine ⟨init, t, r, hqueries, fun q hq => ?_, hP⟩
    obtain ⟨next, hnext⟩ := Option.ne_none_iff_exists'.mp (hinit q hq)
    exact (again?_eq_some_iff.mp hnext).1
  · rintro ⟨init', t', r', hqueries', -, hP⟩
    have hends := hqueries.symm.trans hqueries'
    rw [List.append_singleton_inj] at hends
    cases hends.2
    exact hP

/-- A wait that ends although the cycle is running has no time for another query. -/
theorem ceiling_lt_of_last (hclock : p.clock = {}) (hpoll : 0 < p.poll) (hlast : p.again? now r = none)
    (hrunning : IsRunning r) : p.ceiling < now + r.elapsed + p.poll := by
  by_contra htime
  have hagain : p.again? now r = some (now + r.elapsed + p.poll) :=
    again?_eq_some_iff.mpr ⟨hrunning, Nat.not_lt.mp htime, by omega, by rw [hclock, wake_eq]⟩
  rw [hlast] at hagain
  cases hagain

/-! ## Whole waits -/

/-- How a wait goes: when it makes its queries, that it depends on nothing but their answers, how it ends, and which
snapshot it finds with queries that take no time. -/
structure IsPunctual (p : Plan) (ask : Answers) : Prop where
  count : (queries p ask).length ≤ p.ceiling / p.poll + 1
  first : (queries p ask).head? = some (0, ask 0 0)
  pauses : (queries p ask).IsChain fun q q' => q'.1 = q.1 + q.2.elapsed + p.poll
  begins : ∀ q ∈ queries p ask, q.1 ≤ p.ceiling
  ends : (∀ n t, (ask n t).elapsed ≤ Query.timeLimit) → (run p ask).2 ≤ p.ceiling + Query.timeLimit
  answers : ∀ i q, (queries p ask)[i]? = some q → ask i q.1 = q.2
  congr : ∀ ask' : Answers, (∀ i q, (queries p ask)[i]? = some q → ask' i q.1 = q.2) → run p ask' = run p ask
  complete_iff : ∀ s, (run p ask).1 = .complete s ↔ ∃ init t r, queries p ask = init ++ [(t, r)] ∧
    (∀ q ∈ init, IsRunning q.2) ∧ r.snapshot = some s ∧ s.isComplete = true
  noDaemon_iff : (run p ask).1 = .noDaemon ↔ ∃ init t r, queries p ask = init ++ [(t, r)] ∧
    (∀ q ∈ init, IsRunning q.2) ∧ r.snapshot = none
  timedOut_iff : ∀ s, (run p ask).1 = .timedOut s ↔ ∃ init t r, queries p ask = init ++ [(t, r)] ∧
    (∀ q ∈ init, IsRunning q.2) ∧ r.snapshot = some s ∧ s.isComplete = false ∧ p.ceiling < t + r.elapsed + p.poll
  grid : (∀ n t, (ask n t).elapsed = 0) → (∀ i q, (queries p ask)[i]? = some q → q.1 = i * p.poll) ∧
    ∀ s t, run p ask = (.complete s, t) ↔ ∃ m, t = m * p.poll ∧ t ≤ p.ceiling ∧
      (∀ i < m, IsRunning (ask i (i * p.poll))) ∧ (ask m t).snapshot = some s ∧ s.isComplete = true

section Whole

variable (hclock : p.clock = {})
include hclock

/-- A wait ends no later than a query that begins when the time is up. -/
theorem end_le_of_elapsed_le {limit : Nat} (hlimit : ∀ n t, (ask n t).elapsed ≤ limit) :
    (run p ask).2 ≤ p.ceiling + limit := by
  obtain ⟨init, t, r, hqueries, hrun, -⟩ := runFrom_eq p ask 0 0
  have hlast : (queries p ask)[init.length]? = some (t, r) := by
    rw [queries, hqueries]
    exact List.getElem?_concat_length
  have hbegins := le_ceiling_of_mem hclock (Nat.zero_le p.ceiling) (t, r) (List.mem_of_getElem? hlast)
  have hshort := hlimit (0 + init.length) t
  rw [answer_of_getElem? hlast] at hshort
  rw [run, hrun]
  exact Nat.add_le_add hbegins hshort

/-- Whatever the other side does, and whenever it does it, a wait ends in time. -/
theorem end_le_of_peers (peers : Nat → Nat → Option Query.Peer) :
    (run p fun n t => Query.result Query.timeLimit (peers n t)).2 ≤ p.ceiling + Query.timeLimit := by
  refine end_le_of_elapsed_le hclock fun n t => ?_
  cases peers n t with
  | none => exact Nat.zero_le _
  | some peer => exact Query.elapsed_read_le Query.timeLimit [] peer

variable (hpoll : 0 < p.poll)
include hpoll

theorem length_queries_le : (queries p ask).length ≤ p.ceiling / p.poll + 1 := by
  have hlength : 0 + (queries p ask).length * p.poll ≤ p.ceiling + p.poll :=
    length_queriesFrom_mul_le hclock (Nat.zero_le p.ceiling)
  rw [Nat.zero_add] at hlength
  rw [← Nat.add_div_right p.ceiling hpoll]
  exact (Nat.le_div_iff_mul_le hpoll).mpr hlength

/-- A wait whose queries take no time ends with a finished cycle exactly if some query, before which the cycle was
running all along, finds it. -/
theorem run_eq_complete_iff (hinstant : ∀ n t, (ask n t).elapsed = 0) {t : Nat} :
    run p ask = (.complete s, t) ↔ ∃ m, t = m * p.poll ∧ t ≤ p.ceiling ∧
      (∀ i < m, IsRunning (ask i (i * p.poll))) ∧ (ask m t).snapshot = some s ∧ s.isComplete = true := by
  constructor
  · intro hend
    obtain ⟨init, t', r, hqueries, hrun, hlast, hinit⟩ := runFrom_eq p ask 0 0
    have hat : ∀ i q, (queries p ask)[i]? = some q → q.1 = i * p.poll ∧ ask i q.1 = q.2 := fun i q hq => by
      have htime := time_of_getElem? hclock hinstant hq
      have hanswer := answer_of_getElem? hq
      rw [Nat.zero_add] at htime hanswer
      exact ⟨htime, hanswer⟩
    rw [run, hrun, Prod.mk.injEq, outcomeOf_eq_complete_iff] at hend
    obtain ⟨⟨hsnapshot, hcomplete⟩, rfl⟩ := hend
    have hthere : (queries p ask)[init.length]? = some (t', r) := by
      rw [queries, hqueries]
      exact List.getElem?_concat_length
    obtain ⟨htime, hanswer⟩ := hat init.length _ hthere
    have hinstantly := hinstant init.length t'
    rw [hanswer] at hinstantly
    rw [hinstantly, Nat.add_zero]
    refine ⟨init.length, htime, ?_, fun i hi => ?_, ?_, hcomplete⟩
    · exact le_ceiling_of_mem hclock (Nat.zero_le _) (t', r) (List.mem_of_getElem? hthere)
    · have hearlier : (queries p ask)[i]? = some init[i] := by
        rw [queries, hqueries, List.getElem?_append_left hi]
        exact List.getElem?_eq_getElem hi
      obtain ⟨hearly, hrunning⟩ := hat i _ hearlier
      obtain ⟨next, hnext⟩ := Option.ne_none_iff_exists'.mp (hinit _ (List.getElem_mem hi))
      rw [← hearly, hrunning]
      exact (again?_eq_some_iff.mp hnext).1
    · rw [hanswer]
      exact hsnapshot
  · rintro ⟨m, rfl, htime, hrunning, hanswer, hcomplete⟩
    have hend : runFrom p ask 0 0 = (.complete s, 0 + m * p.poll) :=
      runFrom_of_grid hclock hpoll hinstant (by rwa [Nat.zero_add]) (fun i hi => by simpa using hrunning i hi)
        (by simpa using hanswer) hcomplete
    rwa [Nat.zero_add] at hend

end Whole

/-- **Every wait is punctual.** -/
theorem isPunctual_run (ceiling : Nat) {poll : Nat} (hpoll : 0 < poll) (ask : Answers) :
    IsPunctual { ceiling, poll } ask where
  count := length_queries_le rfl hpoll
  first := head?_queriesFrom ..
  pauses := isChain_queriesFrom rfl ask 0 0
  begins := le_ceiling_of_mem rfl (Nat.zero_le ceiling)
  ends := end_le_of_elapsed_le rfl
  answers i q hq := by
    have hanswer := answer_of_getElem? hq
    rwa [Nat.zero_add] at hanswer
  congr ask' hask := (queriesFrom_congr fun i q hq => by rw [Nat.zero_add]; exact hask i q hq).2
  complete_iff s := run_eq_iff fun t r _ => outcomeOf_eq_complete_iff
  noDaemon_iff := run_eq_iff fun t r _ => outcomeOf_eq_noDaemon_iff
  timedOut_iff s := run_eq_iff fun t r hlast => by
    rw [outcomeOf_eq_timedOut_iff, ← and_assoc]
    exact (and_iff_left_of_imp fun hs => ceiling_lt_of_last rfl hpoll hlast ⟨s, hs⟩).symm
  grid hinstant := by
    refine ⟨fun i q hq => ?_, fun s t => run_eq_complete_iff rfl hpoll hinstant⟩
    have htime := time_of_getElem? rfl hinstant hq
    rwa [Nat.zero_add] at htime

/-- The last query begins just when the time is up, and finds the finished cycle as late as it may. -/
theorem isPunctual_run_of_slow_query :
    let running : Snapshot := .blank 0
    let finished : Snapshot := { running with isComplete := true }
    let ask : Answers := fun n _ => if n = 2 then ⟨some finished, 5000⟩ else ⟨some running, 200 * n⟩
    let p : Plan := { ceiling := 1000, poll := 400 }
    0 < p.poll ∧ IsPunctual p ask ∧ queries p ask = [(0, ask 0 0), (400, ask 1 400), (1000, ask 2 1000)] ∧
      run p ask = (.complete finished, 6000) := by
  intro running finished ask p
  have hfirst : p.again? 0 (ask 0 0) = some 400 := by decide
  have hsecond : p.again? 400 (ask 1 400) = some 1000 := by decide
  have hthird : p.again? 1000 (ask 2 1000) = none := by decide
  refine ⟨by decide, isPunctual_run 1000 (by decide) ask, ?_, ?_⟩
  · rw [queries, queriesFrom_of_again hfirst, queriesFrom_of_again hsecond, queriesFrom_of_last hthird]
  · rw [run, runFrom_of_again hfirst, runFrom_of_again hsecond, runFrom_of_last hthird]
    rfl

end WarmCheck.Wait

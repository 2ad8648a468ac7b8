import Mathlib.Data.List.Flatten
import Mathlib.Data.List.Nodup
import Mathlib.Data.List.Perm.Basic
import WarmCheck.Debounce

/-!
# Delays

What becomes of the tasks that a debouncer is given, over a whole run of calls at increasing times. What is
due at the time of a call happens before the call.

* `Debouncer.IsSound`: at most one task waits, and what runs is known, so that it can be stopped.
* `Debouncer.future`: what becomes of what waits and of what runs.
* `Debouncer.perm_advance`: what happens as time passes is the part of the future that is due.
* `Debouncer.perm_run`: the events of a run are what becomes of each of its tasks.
* **`Debouncer.keepsTime_run`**: when tasks begin and end, and when one waits.
-/

namespace WarmCheck

/-- Whether a task begins. -/
def TaskEvent.isStart : TaskEvent → Bool
  | start .. => true
  | finish .. => false

namespace Debouncer

/-! ## Runs -/

/-- What a debouncer can be asked for. -/
inductive Call where
  | schedule (task : Task)
  | cancel
  | stop
  | replace
  deriving DecidableEq, Repr

/-- The task that is put off. -/
def Call.task? : Call → Option Task
  | schedule task => some task
  | cancel | stop | replace => none

/-- Whether the tasks that run are stopped as well. -/
def Call.stops : Call → Bool
  | stop | replace => true
  | schedule _ | cancel => false

/-- A call at a time. -/
def call (d : Debouncer) (now : Nat) : Call → Debouncer
  | .schedule task => d.schedule now task
  | .cancel => d.cancel
  | .stop => d.stop
  | .replace => d.replace

/-- Calls at their times, and then time passes up to `deadline`. -/
def run (d : Debouncer) (deadline : Nat) : List (Nat × Call) → Debouncer × List TaskEvent
  | [] => d.advance deadline
  | (now, c) :: calls =>
    let (d, past) := d.advance now
    let (d, rest) := (d.call now c).run deadline calls
    (d, past ++ rest)

variable {d : Debouncer} {calls : List (Nat × Call)} {c : Call} {j : Job} {js : List Job} {task : Task}
  {deadline t due : Nat}

/-! ## Soundness -/

/-- At most one task waits, and it is the one that would be called off; the tasks that run are known, those
that have just ended apart. -/
structure IsSound (d : Debouncer) (now : Nat) : Prop where
  waits : d.delays = [] ∨ ∃ j, d.delays = [j] ∧ d.pending = some j.number
  known : ∀ j ∈ d.running, now < j.due → j.number ∈ d.fired

/-- All that is under way is due later. -/
structure IsAhead (d : Debouncer) (now : Nat) : Prop where
  delays : ∀ j ∈ d.delays, now < j.due
  running : ∀ j ∈ d.running, now < j.due

theorem delays_cancel (h : d.IsSound t) : d.cancel.delays = [] := by
  obtain h | ⟨j, hj, hp⟩ := h.waits
  · simp [cancel, h]
  · simp [cancel, hj, hp]

/-- After a call nothing waits but what it schedules. -/
theorem delays_call (h : d.IsSound t) (c : Call) :
    (d.call t c).delays = c.task?.toList.map fun task => ⟨d.nextJob, task, t + d.delay⟩ := by
  cases c with
  | schedule task =>
    show d.cancel.delays ++ _ = _
    rw [delays_cancel h]
    rfl
  | cancel | stop | replace => exact delays_cancel h

theorem running_stop (h : d.IsSound t) (hahead : d.IsAhead t) : d.stop.running = [] := by
  refine List.filter_eq_nil_iff.mpr fun j hj => ?_
  have hknown : j.number ∈ d.cancel.fired := h.known j hj (hahead.running j hj)
  simpa using hknown

theorem isPending_iff (h : d.IsSound t) : d.isPending ↔ d.delays ≠ [] := by
  obtain h | ⟨j, hj, hp⟩ := h.waits
  · simp [isPending, h]
  · simp [isPending, hj, hp]

/-- The tasks that run beside the ones that begin. -/
theorem known_begin (h : ∀ r ∈ d.running, t < r.due → r.number ∈ d.fired) (hdue : j.due ≤ t) :
    ∀ r ∈ (d.beginOne j).1.running, t < r.due → r.number ∈ (d.beginOne j).1.fired := by
  intro r hr hlate
  simp only [beginOne, List.mem_append, List.mem_singleton, List.mem_filter, List.any_eq_true,
    decide_eq_true_eq] at hr ⊢
  -- A task that is over by the time another begins is dropped; it is no task that runs at `t`.
  obtain hr | rfl := hr
  · exact .inl ⟨h r hr hlate, r, hr, rfl, Nat.lt_of_le_of_lt hdue hlate⟩
  · exact .inr rfl

theorem beginAll_eq (d : Debouncer) (js : List Job) :
    (d.beginAll js).1.delay = d.delay ∧ (d.beginAll js).1.pending = d.pending ∧
      (d.beginAll js).1.delays = d.delays ∧
      (d.beginAll js).2 = js.map fun j => .start j.task.id j.due := by
  induction js generalizing d with
  | nil => exact ⟨rfl, rfl, rfl, rfl⟩
  | cons j js ih =>
    obtain ⟨h₁, h₂, h₃, h₄⟩ := ih (d.beginOne j).1
    exact ⟨h₁, h₂, h₃, congrArg (TaskEvent.start j.task.id j.due :: ·) h₄⟩

theorem known_beginAll (h : ∀ r ∈ d.running, t < r.due → r.number ∈ d.fired) (hdue : ∀ j ∈ js, j.due ≤ t) :
    ∀ r ∈ (d.beginAll js).1.running, t < r.due → r.number ∈ (d.beginAll js).1.fired := by
  induction js generalizing d with
  | nil => exact h
  | cons j js ih =>
    exact ih (known_begin h (hdue j List.mem_cons_self)) fun k hk => hdue k (List.mem_cons_of_mem _ hk)

/-- What runs after tasks have begun, whatever is made of a task and its end. -/
theorem flatMap_running_beginAll {α : Type} (f : Task → Nat → List α) (d : Debouncer) (js : List Job) :
    (d.beginAll js).1.running.flatMap (fun j => f j.task j.due) =
      d.running.flatMap (fun j => f j.task j.due) ++ js.flatMap fun j => f j.task (j.due + j.task.length) := by
  induction js generalizing d with
  | nil => simp [beginAll]
  | cons j js ih =>
    show ((d.beginOne j).1.beginAll js).1.running.flatMap _ = _
    rw [ih]
    simp [beginOne, List.append_assoc]

/-! ## Advancing -/

/-- The debouncer whose delays have been over by `t`, and the tasks that have begun with it. -/
theorem fire_eq (d : Debouncer) (t : Nat) :
    (d.fire t).1.delay = d.delay ∧ (d.fire t).1.pending = d.pending ∧
      (d.fire t).1.delays = d.delays.filter (t < ·.due) ∧
      (d.fire t).2 = (d.delays.filter (·.due ≤ t)).map fun j => .start j.task.id j.due :=
  beginAll_eq _ _

theorem delay_advance (d : Debouncer) (t : Nat) : (d.advance t).1.delay = d.delay := (fire_eq d t).1

theorem delays_advance (d : Debouncer) (t : Nat) : (d.advance t).1.delays = d.delays.filter (t < ·.due) :=
  (fire_eq d t).2.2.1

theorem perm_log_advance (d : Debouncer) (t : Nat) :
    (d.advance t).2.Perm ((d.fire t).2 ++ ((d.fire t).1.retire t).2) := List.mergeSort_perm _ _

theorem isAhead_advance (d : Debouncer) (t : Nat) : (d.advance t).1.IsAhead t where
  delays := by
    intro j hj
    rw [delays_advance] at hj
    exact of_decide_eq_true (List.mem_filter.mp hj).2
  running := fun _ hj => of_decide_eq_true (List.mem_filter.mp hj).2

theorem known_fire (h : ∀ r ∈ d.running, t < r.due → r.number ∈ d.fired) :
    ∀ r ∈ (d.fire t).1.running, t < r.due → r.number ∈ (d.fire t).1.fired :=
  known_beginAll (d := { d with delays := d.delays.filter (t < ·.due) }) h fun _ hj =>
    of_decide_eq_true (List.mem_filter.mp hj).2

theorem IsSound.advance {now : Nat} (h : d.IsSound now) (hnow : now ≤ t) : (d.advance t).1.IsSound t where
  waits := by
    rw [delays_advance, show (d.advance t).1.pending = d.pending from (fire_eq d t).2.1]
    obtain h | ⟨j, hj, hp⟩ := h.waits
    · exact .inl (by rw [h]; rfl)
    · rw [hj, List.filter_singleton]
      cases decide (t < j.due) with
      | true => exact .inr ⟨j, rfl, hp⟩
      | false => exact .inl rfl
  known := by
    intro r hr
    refine known_fire (fun r hr hlate => h.known r hr ?_) r (List.mem_filter.mp hr).1
    omega

/-- A call, with nothing due before it, leaves what waits and what runs in order. -/
theorem IsSound.call (h : d.IsSound t) (hahead : d.IsAhead t) (c : Call) : (d.call t c).IsSound t := by
  cases c with
  | schedule task => exact ⟨.inr ⟨_, delays_call h (.schedule task), rfl⟩, h.known⟩
  | cancel => exact ⟨.inl (delays_cancel h), h.known⟩
  | stop =>
    refine ⟨.inl (delays_cancel h), fun j hj => ?_⟩
    rw [show (d.call t .stop).running = [] from running_stop h hahead] at hj
    cases hj
  | replace =>
    refine ⟨.inl (delays_cancel h), fun j hj => ?_⟩
    rw [show (d.call t .replace).running = [] from running_stop h hahead] at hj
    cases hj

theorem delay_call (d : Debouncer) (t : Nat) (c : Call) : (d.call t c).delay = d.delay := by
  cases c <;> rfl

/-! ## What becomes of a task -/

/-- The end of a task that runs, if it comes to that before the calls and by `deadline`. -/
def ending (calls : List (Nat × Call)) (deadline : Nat) (task : Task) (due : Nat) : List TaskEvent :=
  if due ≤ deadline ∧ ∀ c ∈ calls, c.2.stops → due ≤ c.1 then [.finish task.id due] else []

/-- What becomes of a task that waits, with these calls to come. -/
def course (calls : List (Nat × Call)) (deadline : Nat) (task : Task) (due : Nat) : List TaskEvent :=
  if due ≤ deadline ∧ ∀ c ∈ calls, due ≤ c.1 then
    .start task.id due :: ending calls deadline task (due + task.length)
  else []

/-- What becomes of all that waits and all that runs. -/
def future (d : Debouncer) (calls : List (Nat × Call)) (deadline : Nat) : List TaskEvent :=
  (d.delays.flatMap fun j => course calls deadline j.task j.due) ++
    d.running.flatMap fun j => ending calls deadline j.task j.due

/-- What becomes of the task that a call puts off at `t`. -/
def Call.course (delay t : Nat) (calls : List (Nat × Call)) (deadline : Nat) (c : Call) : List TaskEvent :=
  c.task?.toList.flatMap fun task => Debouncer.course calls deadline task (t + delay)

theorem mem_ending_iff {e : TaskEvent} : e ∈ ending calls deadline task due ↔
    (due ≤ deadline ∧ ∀ c ∈ calls, c.2.stops → due ≤ c.1) ∧ e = .finish task.id due := by
  rw [ending, List.mem_ite_nil_right, List.mem_singleton]

theorem mem_course_iff {e : TaskEvent} : e ∈ course calls deadline task due ↔
    (due ≤ deadline ∧ ∀ c ∈ calls, due ≤ c.1) ∧
      (e = .start task.id due ∨ e ∈ ending calls deadline task (due + task.length)) := by
  rw [course, List.mem_ite_nil_right, List.mem_cons]

theorem ending_of_le (h : ∀ c ∈ calls, t ≤ c.1) (hu : t ≤ deadline) (hdue : due ≤ t) :
    ending calls deadline task due = [.finish task.id due] :=
  if_pos ⟨Nat.le_trans hdue hu, fun c hc _ => Nat.le_trans hdue (h c hc)⟩

theorem course_of_le (h : ∀ c ∈ calls, t ≤ c.1) (hu : t ≤ deadline) (hdue : due ≤ t) :
    course calls deadline task due = .start task.id due :: ending calls deadline task (due + task.length) :=
  if_pos ⟨Nat.le_trans hdue hu, fun c hc => Nat.le_trans hdue (h c hc)⟩

theorem course_cons_of_lt (h : t < due) : course ((t, c) :: calls) deadline task due = [] :=
  if_neg fun h' => Nat.not_le.mpr h (h'.2 _ List.mem_cons_self)

theorem ending_cons_of_lt (h : t < due) :
    ending ((t, c) :: calls) deadline task due = if c.stops then [] else ending calls deadline task due := by
  cases hc : c.stops with
  | true => exact if_neg fun h' => Nat.not_le.mpr h (h'.2 _ List.mem_cons_self hc)
  | false => simp only [ending, List.forall_mem_cons, hc, Bool.false_eq_true, false_implies, true_and, if_false]

/-- What is made of jobs, put apart into those that are due by `t` and the others. -/
theorem perm_flatMap_filter {α : Type} (f : Job → List α) (js : List Job) (t : Nat) :
    (js.flatMap f).Perm ((js.filter (·.due ≤ t)).flatMap f ++ (js.filter (t < ·.due)).flatMap f) := by
  rw [← List.flatMap_append]
  refine List.Perm.flatMap_right f ?_
  have h := (List.filter_append_perm (fun j : Job => decide (j.due ≤ t)) js).symm
  simpa only [← decide_not, Nat.not_le] using h

/-- What waits begins if its delay is over by `t`. -/
theorem perm_fire (d : Debouncer) (h : ∀ c ∈ calls, t ≤ c.1) (hu : t ≤ deadline) :
    (d.future calls deadline).Perm ((d.fire t).2 ++ (d.fire t).1.future calls deadline) := by
  have hdue : (d.delays.filter (·.due ≤ t)).flatMap (fun j => course calls deadline j.task j.due) =
      (d.delays.filter (·.due ≤ t)).flatMap fun j =>
        .start j.task.id j.due :: ending calls deadline j.task (j.due + j.task.length) := by
    exact List.flatMap_congr fun j hj => course_of_le h hu (of_decide_eq_true (List.mem_filter.mp hj).2)
  have hbegin := List.map_append_flatMap_perm (d.delays.filter (·.due ≤ t))
    (fun j => TaskEvent.start j.task.id j.due) fun j => ending calls deadline j.task (j.due + j.task.length)
  have hwaits := perm_flatMap_filter (fun j => course calls deadline j.task j.due) d.delays t
  rw [hdue] at hwaits
  simp only [future, (fire_eq d t).2.2.1, (fire_eq d t).2.2.2]
  rw [fire, flatMap_running_beginAll]
  rw [List.perm_iff_count] at hbegin hwaits ⊢
  intro e
  have hb := hbegin e
  have hw := hwaits e
  simp only [List.count_append] at hb hw ⊢
  omega

/-- What runs ends if it is its time by `t`. -/
theorem perm_retire (d : Debouncer) (h : ∀ c ∈ calls, t ≤ c.1) (hu : t ≤ deadline) :
    (d.future calls deadline).Perm ((d.retire t).2 ++ (d.retire t).1.future calls deadline) := by
  have hdue : (d.running.filter (·.due ≤ t)).flatMap (fun j => ending calls deadline j.task j.due) =
      (d.running.filter (·.due ≤ t)).flatMap fun j => [.finish j.task.id j.due] := by
    exact List.flatMap_congr fun j hj => ending_of_le h hu (of_decide_eq_true (List.mem_filter.mp hj).2)
  have hruns := perm_flatMap_filter (fun j => ending calls deadline j.task j.due) d.running t
  rw [hdue, ← List.map_eq_flatMap] at hruns
  refine (hruns.append_left _).trans ?_
  simp only [future, retire]
  exact List.perm_append_comm_assoc _ _ _

/-- **What happens as time passes is the part of the future that is due**, and the rest stays as it is. -/
theorem perm_advance (d : Debouncer) (h : ∀ c ∈ calls, t ≤ c.1) (hu : t ≤ deadline) :
    (d.future calls deadline).Perm ((d.advance t).2 ++ (d.advance t).1.future calls deadline) := by
  calc d.future calls deadline
    _ |>.Perm ((d.fire t).2 ++ (d.fire t).1.future calls deadline) := perm_fire d h hu
    _ |>.Perm ((d.fire t).2 ++ (((d.fire t).1.retire t).2 ++ (d.advance t).1.future calls deadline)) :=
      (perm_retire _ h hu).append_left _
    _ |>.Perm ((d.advance t).2 ++ (d.advance t).1.future calls deadline) := by
      rw [← List.append_assoc]
      exact (perm_log_advance d t).symm.append_right _

/-- Nothing happens after `deadline`. -/
theorem IsAhead.future_nil (h : d.IsAhead deadline) : d.future [] deadline = [] := by
  simp only [future, List.append_eq_nil_iff, List.flatMap_eq_nil_iff]
  exact ⟨fun j hj => if_neg fun h' => Nat.not_le.mpr (h.delays j hj) h'.1,
    fun j hj => if_neg fun h' => Nat.not_le.mpr (h.running j hj) h'.1⟩

theorem flatMap_running_call (h : d.IsSound t) (hahead : d.IsAhead t) (c : Call) :
    (d.call t c).running.flatMap (fun j => ending calls deadline j.task j.due) =
      d.running.flatMap fun j => ending ((t, c) :: calls) deadline j.task j.due := by
  have hcons : ∀ j ∈ d.running, ending ((t, c) :: calls) deadline j.task j.due = _ :=
    fun j hj => ending_cons_of_lt (hahead.running j hj)
  rw [List.flatMap_congr hcons]
  cases c with
  | schedule task | cancel => rfl
  | stop | replace =>
    show d.stop.running.flatMap _ = _
    rw [running_stop h hahead]
    exact (List.flatMap_eq_nil_iff.mpr fun _ _ => rfl).symm

/-- **A call changes the future by what it schedules**, once nothing is due before it. -/
theorem future_call (h : d.IsSound t) (hahead : d.IsAhead t) (c : Call) (calls : List (Nat × Call)) (deadline : Nat) :
    (d.call t c).future calls deadline =
      c.course d.delay t calls deadline ++ d.future ((t, c) :: calls) deadline := by
  have hwaits : d.delays.flatMap (fun j => course ((t, c) :: calls) deadline j.task j.due) = [] :=
    List.flatMap_eq_nil_iff.mpr fun j hj => course_cons_of_lt (hahead.delays j hj)
  rw [future, future, delays_call h, List.flatMap_map, flatMap_running_call h hahead, hwaits, List.nil_append,
    Call.course]

/-! ## Whole runs -/

/-- What becomes of the task that a call among others schedules. -/
def courseOf (delay : Nat) (calls : List (Nat × Call)) (deadline : Nat) (c : Nat × Call) : List TaskEvent :=
  c.2.course delay c.1 (calls.filter (c.1 < ·.1)) deadline

theorem courseOf_cons (h : ((t, c) :: calls).Pairwise (·.1 < ·.1)) (delay deadline : Nat) :
    ((t, c) :: calls).flatMap (courseOf delay ((t, c) :: calls) deadline) =
      c.course delay t calls deadline ++ calls.flatMap (courseOf delay calls deadline) := by
  obtain ⟨hlater, -⟩ := List.pairwise_cons.mp h
  have hself : ((t, c) :: calls).filter (t < ·.1) = calls := by
    rw [List.filter_cons_of_neg (by simp), List.filter_eq_self]
    exact fun c' hc' => decide_eq_true (hlater c' hc')
  rw [List.flatMap_cons, courseOf, hself]
  congr 1
  refine List.flatMap_congr fun c' hc' => ?_
  rw [courseOf, courseOf, List.filter_cons_of_neg]
  simpa using Nat.le_of_lt (hlater c' hc')

theorem log_run_cons (d : Debouncer) (deadline t : Nat) (c : Call) (calls : List (Nat × Call)) :
    (d.run deadline ((t, c) :: calls)).2 = (d.advance t).2 ++ (((d.advance t).1.call t c).run deadline calls).2 := rfl

theorem IsSound.advance_call {now : Nat} (h : d.IsSound now) (hnow : now ≤ t) (c : Call) :
    ((d.advance t).1.call t c).IsSound t :=
  (h.advance hnow).call (isAhead_advance d t) c

/-- **The events of a run are what becomes of each of its tasks**, and of those that were there before. -/
theorem perm_run {now : Nat} (h : d.IsSound now) (hcalls : calls.Pairwise (·.1 < ·.1))
    (hnow : ∀ c ∈ calls, now ≤ c.1) (hend : ∀ c ∈ calls, c.1 ≤ deadline) :
    (d.run deadline calls).2.Perm
      (d.future calls deadline ++ calls.flatMap (courseOf d.delay calls deadline)) := by
  induction calls generalizing d now with
  | nil =>
    have hpast : (d.future [] deadline).Perm _ := perm_advance d (fun _ hc => by cases hc) (Nat.le_refl deadline)
    rw [(isAhead_advance d deadline).future_nil, List.append_nil] at hpast
    simpa [run] using hpast.symm
  | cons head calls ih =>
    obtain ⟨t, c⟩ := head
    obtain ⟨hlater, hrest⟩ := List.pairwise_cons.mp hcalls
    have hle : ∀ c' ∈ (t, c) :: calls, t ≤ c'.1 :=
      List.forall_mem_cons.mpr ⟨Nat.le_refl t, fun c' hc' => Nat.le_of_lt (hlater c' hc')⟩
    have hpast := perm_advance d hle (hend _ List.mem_cons_self)
    have hcourses := ih (h.advance_call (hnow _ List.mem_cons_self) c) hrest
      (fun c' hc' => hle c' (List.mem_cons_of_mem _ hc')) fun c' hc' => hend c' (List.mem_cons_of_mem _ hc')
    rw [future_call (h.advance (hnow _ List.mem_cons_self)) (isAhead_advance d t), delay_call,
      delay_advance] at hcourses
    -- What is due by `t` comes first; what is left of the future goes on beside the task that the call puts off.
    rw [courseOf_cons hcalls, log_run_cons]
    rw [List.perm_iff_count] at hpast hcourses ⊢
    intro e
    have hp := hpast e
    have hc := hcourses e
    simp only [List.count_append] at hp hc ⊢
    omega

theorem time_le_of_mem_advance {e : TaskEvent} (h : e ∈ (d.advance t).2) : e.time ≤ t := by
  rw [(perm_log_advance d t).mem_iff, List.mem_append, (fire_eq d t).2.2.2] at h
  obtain h | h := h
  all_goals
    obtain ⟨j, hj, rfl⟩ := List.mem_map.mp h
    exact of_decide_eq_true (List.mem_filter.mp hj).2

theorem le_time_of_mem_course {e : TaskEvent} (h : e ∈ course calls deadline task due) : due ≤ e.time := by
  obtain ⟨-, rfl | h⟩ := mem_course_iff.mp h
  · exact Nat.le_refl due
  · obtain ⟨-, rfl⟩ := mem_ending_iff.mp h
    exact Nat.le_add_right due task.length

theorem le_time_of_mem_call_course {delay : Nat} {e : TaskEvent} (h : e ∈ c.course delay t calls deadline) :
    t + delay ≤ e.time := by
  obtain ⟨task, -, h⟩ := List.mem_flatMap.mp h
  exact le_time_of_mem_course h

theorem IsAhead.le_time_of_mem_future {e : TaskEvent} (hahead : d.IsAhead t) (h : e ∈ d.future calls deadline) :
    t ≤ e.time := by
  obtain h | h := List.mem_append.mp h
  · obtain ⟨j, hj, he⟩ := List.mem_flatMap.mp h
    exact Nat.le_trans (Nat.le_of_lt (hahead.delays j hj)) (le_time_of_mem_course he)
  · obtain ⟨j, hj, he⟩ := List.mem_flatMap.mp h
    obtain ⟨-, rfl⟩ := mem_ending_iff.mp he
    exact Nat.le_of_lt (hahead.running j hj)

theorem pairwise_advance (d : Debouncer) (t : Nat) : (d.advance t).2.Pairwise (·.time ≤ ·.time) := by
  have hsort : (d.advance t).2.Pairwise fun a b => decide (a.time ≤ b.time) = true := by
    refine List.pairwise_mergeSort (fun a b c hab hbc => ?_) (fun a b => ?_) _
    · simp only [decide_eq_true_eq] at hab hbc ⊢
      omega
    · simp only [Bool.or_eq_true, decide_eq_true_eq]
      omega
  exact hsort.imp of_decide_eq_true

/-- What happens in a run happens in the order of time. -/
theorem pairwise_run {now : Nat} (h : d.IsSound now) (hcalls : calls.Pairwise (·.1 < ·.1))
    (hnow : ∀ c ∈ calls, now ≤ c.1) (hend : ∀ c ∈ calls, c.1 ≤ deadline) :
    (d.run deadline calls).2.Pairwise (·.time ≤ ·.time) := by
  induction calls generalizing d now with
  | nil => exact pairwise_advance d deadline
  | cons head calls ih =>
    obtain ⟨t, c⟩ := head
    obtain ⟨hlater, hrest⟩ := List.pairwise_cons.mp hcalls
    obtain ⟨-, hend⟩ := List.forall_mem_cons.mp hend
    have hle : ∀ c' ∈ calls, t ≤ c'.1 := fun c' hc' => Nat.le_of_lt (hlater c' hc')
    have hsound := h.advance_call (hnow _ List.mem_cons_self) c
    rw [log_run_cons]
    refine List.pairwise_append.mpr ⟨pairwise_advance d t, ih hsound hrest hle hend, fun a ha b hb => ?_⟩
    refine Nat.le_trans (time_le_of_mem_advance ha) ?_
    rw [(perm_run hsound hrest hle hend).mem_iff, future_call (h.advance (hnow _ List.mem_cons_self))
      (isAhead_advance d t), List.mem_append, List.mem_append] at hb
    obtain (hb | hb) | hb := hb
    · have hle' := le_time_of_mem_call_course hb
      omega
    · exact (isAhead_advance d t).le_time_of_mem_future hb
    · obtain ⟨c', hc', hb⟩ := List.mem_flatMap.mp hb
      have hle' := le_time_of_mem_call_course hb
      have hlt := hle c' hc'
      omega

/-! ### The state that a run leads to -/

theorem run_concat (d : Debouncer) (deadline : Nat) (calls : List (Nat × Call)) (t : Nat) (c : Call) :
    (d.run deadline (calls ++ [(t, c)])).1 = (((d.run t calls).1.call t c).advance deadline).1 := by
  induction calls generalizing d with
  | nil => rfl
  | cons head calls ih => exact ih _

theorem delay_run (d : Debouncer) (deadline : Nat) (calls : List (Nat × Call)) :
    (d.run deadline calls).1.delay = d.delay := by
  induction calls generalizing d with
  | nil => exact delay_advance d deadline
  | cons head calls ih => exact (ih _).trans ((delay_call _ _ _).trans (delay_advance d head.1))

theorem IsSound.run {now : Nat} (h : d.IsSound now) (hcalls : calls.Pairwise (·.1 < ·.1))
    (hnow : ∀ c ∈ calls, now ≤ c.1) (hend : ∀ c ∈ calls, c.1 ≤ deadline) (hu : now ≤ deadline) :
    (d.run deadline calls).1.IsSound deadline := by
  induction calls generalizing d now with
  | nil => exact h.advance hu
  | cons head calls ih =>
    obtain ⟨hlater, hrest⟩ := List.pairwise_cons.mp hcalls
    obtain ⟨hhead, hend⟩ := List.forall_mem_cons.mp hend
    exact ih (h.advance_call (hnow _ List.mem_cons_self) head.2) hrest
      (fun c' hc' => Nat.le_of_lt (hlater c' hc')) hend hhead

theorem isSound_new (delay : Nat) : ({ delay } : Debouncer).IsSound 0 where
  waits := .inl rfl
  known := fun _ h => by cases h

/-- **A task waits** if the last call has scheduled it, and its delay is not over. -/
theorem isPending_run (delay : Nat) (hcalls : calls.Pairwise (·.1 < ·.1)) (hend : ∀ c ∈ calls, c.1 ≤ deadline) :
    (({ delay } : Debouncer).run deadline calls).1.isPending ↔
      ∃ t task, calls.getLast? = some (t, .schedule task) ∧ deadline < t + delay := by
  rw [isPending_iff ((isSound_new delay).run hcalls (fun _ _ => Nat.zero_le _) hend (Nat.zero_le deadline))]
  obtain rfl | ⟨init, last, rfl⟩ := List.eq_nil_or_concat' calls
  · simp [run, delays_advance]
  · obtain ⟨t, c⟩ := last
    obtain ⟨hinit, -, hbefore⟩ := List.pairwise_append.mp hcalls
    have hle : ∀ c' ∈ init, c'.1 ≤ t := fun c' hc' => Nat.le_of_lt (hbefore c' hc' _ (List.mem_singleton_self _))
    have hmet := (isSound_new delay).run hinit (fun _ _ => Nat.zero_le _) hle (Nat.zero_le t)
    rw [run_concat, delays_advance, List.getLast?_concat, delays_call hmet, delay_run]
    cases c <;> simp [Call.task?]

/-! ## The law -/

/-- A task that is put off at `t` begins by `deadline`: no call comes in its delay. -/
def Begins (delay : Nat) (calls : List (Nat × Call)) (deadline t : Nat) : Prop :=
  t + delay ≤ deadline ∧ ∀ c ∈ calls, ¬ (t < c.1 ∧ c.1 < t + delay)

/-- It ends as well: no call stops it before it is over. Other calls are of no account once it has begun. -/
def Ends (delay : Nat) (calls : List (Nat × Call)) (deadline t : Nat) (task : Task) : Prop :=
  Begins delay calls deadline t ∧ t + delay + task.length ≤ deadline ∧
    ∀ c ∈ calls, c.2.stops → ¬ (t < c.1 ∧ c.1 < t + delay + task.length)

instance (delay : Nat) (calls : List (Nat × Call)) (deadline t : Nat) : Decidable (Begins delay calls deadline t) :=
  inferInstanceAs (Decidable (_ ∧ _))

instance (delay : Nat) (calls : List (Nat × Call)) (deadline t : Nat) (task : Task) :
    Decidable (Ends delay calls deadline t task) :=
  inferInstanceAs (Decidable (_ ∧ _))

variable {delay : Nat} {e : TaskEvent}

theorem courseOf_schedule (delay : Nat) (calls : List (Nat × Call)) (deadline t : Nat) (task : Task) :
    courseOf delay calls deadline (t, .schedule task) =
      (if Begins delay calls deadline t then [.start task.id (t + delay)] else []) ++
        if Ends delay calls deadline t task then [.finish task.id (t + delay + task.length)] else [] := by
  have hbegins : (t + delay ≤ deadline ∧ ∀ c ∈ calls.filter (t < ·.1), t + delay ≤ c.1) ↔
      Begins delay calls deadline t := by
    simp only [Begins, List.mem_filter, decide_eq_true_eq, and_imp, not_and, Nat.not_lt]
  have hends : (Begins delay calls deadline t ∧ t + delay + task.length ≤ deadline ∧
      ∀ c ∈ calls.filter (t < ·.1), c.2.stops → t + delay + task.length ≤ c.1) ↔
      Ends delay calls deadline t task := by
    simp only [Ends, List.mem_filter, decide_eq_true_eq, and_imp, not_and, Nat.not_lt]
    exact and_congr_right fun _ => and_congr_right fun _ => forall₂_congr fun _ _ => imp.swap
  rw [courseOf, Call.course, Call.task?, Option.toList_some, List.flatMap_singleton, course, ending]
  by_cases hb : Begins delay calls deadline t
  · rw [if_pos (hbegins.mpr hb), if_pos hb, List.singleton_append]
    simp only [← hends, hb, true_and]
  · rw [if_neg (mt hbegins.mp hb), if_neg hb, if_neg fun h : Ends .. => hb h.1, List.append_nil]

theorem mem_courseOf_iff {c : Nat × Call} : e ∈ courseOf delay calls deadline c ↔
    ∃ task, c.2 = .schedule task ∧ (Begins delay calls deadline c.1 ∧ e = .start task.id (c.1 + delay) ∨
      Ends delay calls deadline c.1 task ∧ e = .finish task.id (c.1 + delay + task.length)) := by
  obtain ⟨t, c⟩ := c
  cases c with
  | schedule task =>
    rw [courseOf_schedule, List.mem_append, List.mem_ite_nil_right, List.mem_ite_nil_right, List.mem_singleton,
      List.mem_singleton]
    simp
  | cancel | stop | replace =>
    show e ∈ [] ↔ _
    simp

theorem eq_of_time_eq {c c' : Nat × Call} (hcalls : calls.Pairwise (·.1 < ·.1)) (hc : c ∈ calls) (hc' : c' ∈ calls)
    (htime : c.1 = c'.1) : c = c' :=
  List.inj_on_of_nodup_map (List.pairwise_map.mpr (hcalls.imp Nat.ne_of_lt)) hc hc' htime

/-- How often something happens that only one of the calls can bring about. -/
theorem count_flatMap_of_once {c : Nat × Call} (f : Nat × Call → List TaskEvent)
    (hcalls : calls.Pairwise (·.1 < ·.1)) (hc : c ∈ calls) (hother : ∀ c' ∈ calls, e ∈ f c' → c'.1 = c.1) :
    (calls.flatMap f).count e = (f c).count e := by
  obtain ⟨before, after, rfl⟩ := List.append_of_mem hc
  obtain ⟨-, hafter, hbefore⟩ := List.pairwise_append.mp hcalls
  have hpast : e ∉ before.flatMap f := fun he => by
    obtain ⟨c', hc', he⟩ := List.mem_flatMap.mp he
    have hlt := hbefore c' hc' c List.mem_cons_self
    have heq := hother c' (List.mem_append_left _ hc') he
    omega
  have hlater : e ∉ after.flatMap f := fun he => by
    obtain ⟨c', hc', he⟩ := List.mem_flatMap.mp he
    have hlt := (List.pairwise_cons.mp hafter).1 c' hc'
    have heq := hother c' (List.mem_append_right _ (List.mem_cons_of_mem _ hc')) he
    omega
  rw [List.flatMap_append, List.flatMap_cons, List.count_append, List.count_append, List.count_eq_zero.mpr hpast,
    List.count_eq_zero.mpr hlater, Nat.zero_add, Nat.add_zero]

/-- **Two tasks begin with a delay between them**: the second is not put off before the first has begun. -/
theorem pairwise_flatMap_courseOf (hcalls : calls.Pairwise (·.1 < ·.1)) :
    (calls.flatMap (courseOf delay calls deadline)).Pairwise fun a b =>
      a.isStart → b.isStart → a.time + delay ≤ b.time ∨ b.time + delay ≤ a.time := by
  refine List.pairwise_flatMap.mpr ⟨fun c _ => ?alone, hcalls.imp_of_mem fun {c c'} _ hc' hlt => ?two⟩
  case alone =>
    obtain ⟨t, c⟩ := c
    cases c with
    | schedule task =>
      rw [courseOf_schedule]
      split <;> split <;> simp [TaskEvent.isStart]
    | cancel | stop | replace => exact List.Pairwise.nil
  case two =>
    intro a ha b hb hstart hstart'
    obtain ⟨task, -, ⟨hbegins, rfl⟩ | ⟨-, rfl⟩⟩ := mem_courseOf_iff.mp ha
    · obtain ⟨task', -, ⟨-, rfl⟩ | ⟨-, rfl⟩⟩ := mem_courseOf_iff.mp hb
      · have hfree := hbegins.2 c' hc'
        show _ ∨ _
        simp only [TaskEvent.time]
        omega
      · cases hstart'
    · cases hstart

/-- What comes of a task is over when everything is stopped. -/
theorem time_le_of_stops {c c' : Nat × Call} (hcalls : calls.Pairwise (·.1 < ·.1)) (hc : c ∈ calls)
    (hstops : c.2.stops) (hc' : c' ∈ calls) (hle : c'.1 ≤ c.1) (h : e ∈ courseOf delay calls deadline c') :
    e.time ≤ c.1 := by
  obtain ⟨task, htask, h⟩ := mem_courseOf_iff.mp h
  have hne : c'.1 ≠ c.1 := fun htime => by
    rw [← eq_of_time_eq hcalls hc' hc htime, htask] at hstops
    cases hstops
  obtain ⟨hbegins, rfl⟩ | ⟨hends, rfl⟩ := h
  · have hfree := hbegins.2 c hc
    simp only [TaskEvent.time]
    omega
  · have hfree := hends.2.2 c hc hstops
    simp only [TaskEvent.time]
    omega

/-- **When everything is stopped, the tasks are over that were put off before**, and none of the others is. -/
theorem perm_filter_flatMap_courseOf {c : Nat × Call} (hcalls : calls.Pairwise (·.1 < ·.1)) (hc : c ∈ calls)
    (hstops : c.2.stops) :
    ((calls.flatMap (courseOf delay calls deadline)).filter (c.1 < ·.time)).Perm
      ((calls.filter (c.1 < ·.1)).flatMap (courseOf delay calls deadline)) := by
  have hsplit := ((List.filter_append_perm (fun c' : Nat × Call => decide (c.1 < c'.1)) calls).symm.flatMap_right
    (courseOf delay calls deadline)).filter fun e => decide (c.1 < e.time)
  have hlater : ∀ e ∈ (calls.filter (c.1 < ·.1)).flatMap (courseOf delay calls deadline),
      decide (c.1 < e.time) = true := by
    intro e he
    obtain ⟨c', hc', he⟩ := List.mem_flatMap.mp he
    have hlt := of_decide_eq_true (List.mem_filter.mp hc').2
    have hle := le_time_of_mem_call_course he
    exact decide_eq_true (by omega)
  have hpast : ∀ e ∈ (calls.filter fun c' => !decide (c.1 < c'.1)).flatMap (courseOf delay calls deadline),
      ¬ decide (c.1 < e.time) = true := by
    intro e he
    obtain ⟨c', hc', he⟩ := List.mem_flatMap.mp he
    obtain ⟨hc', hle⟩ := List.mem_filter.mp hc'
    have hover := time_le_of_stops hcalls hc hstops hc' (by simpa using hle) he
    simpa using hover
  rwa [List.flatMap_append, List.filter_append, List.filter_eq_self.mpr hlater, List.filter_eq_nil_iff.mpr hpast,
    List.append_nil] at hsplit

/-- What a debouncer keeps to over a run of calls, with what has happened by `deadline` and the state that is
reached. It applies to every time of a longer run, with the calls up to that time. -/
structure KeepsTime (delay : Nat) (calls : List (Nat × Call)) (deadline : Nat) (d : Debouncer)
    (log : List TaskEvent) : Prop where
  /-- Nothing happens but what becomes of each task, -/
  events : log.Perm (calls.flatMap (courseOf delay calls deadline))
  /-- in the order of time. -/
  inOrder : log.Pairwise (·.time ≤ ·.time)
  /-- A task begins once, after its delay, if no call comes in it, and otherwise never. -/
  starts : ∀ t task, (t, .schedule task) ∈ calls →
    log.count (.start task.id (t + delay)) = if Begins delay calls deadline t then 1 else 0
  /-- A task that has begun ends once, when it is over, if it is not stopped before, and otherwise never. -/
  finishes : ∀ t task, (t, .schedule task) ∈ calls →
    (∀ t' task', (t', .schedule task') ∈ calls → task'.id = task.id → t' = t) →
    log.count (.finish task.id (t + delay + task.length)) = if Ends delay calls deadline t task then 1 else 0
  /-- What happens after everything is stopped is what becomes of the tasks that are put off later. -/
  stopped : ∀ c ∈ calls, c.2.stops →
    (log.filter (c.1 < ·.time)).Perm ((calls.filter (c.1 < ·.1)).flatMap (courseOf delay calls deadline))
  /-- A task waits while it is the last that was put off, nothing else has been asked for, and its delay is
  not over. -/
  waits : d.isPending ↔ ∃ t task, calls.getLast? = some (t, .schedule task) ∧ deadline < t + delay
  /-- Tasks begin with a delay between them. -/
  apart : log.Pairwise fun a b => a.isStart → b.isStart → a.time + delay ≤ b.time

/-- **A debouncer keeps its time** whatever is asked of it: a task begins when its delay has passed undisturbed
and runs to its end unless everything is stopped, however many tasks run at once. -/
theorem keepsTime_run (delay : Nat) (calls : List (Nat × Call)) (deadline : Nat) (hcalls : calls.Pairwise (·.1 < ·.1))
    (hend : ∀ c ∈ calls, c.1 ≤ deadline) :
    KeepsTime delay calls deadline (({ delay } : Debouncer).run deadline calls).1
      (({ delay } : Debouncer).run deadline calls).2 := by
  have hnew := isSound_new delay
  have hnow : ∀ c ∈ calls, 0 ≤ c.1 := fun _ _ => Nat.zero_le _
  have hevents : (({ delay } : Debouncer).run deadline calls).2.Perm (calls.flatMap (courseOf delay calls deadline)) :=
    perm_run hnew hcalls hnow hend
  have horder := pairwise_run hnew hcalls hnow hend
  refine ⟨hevents, horder, ?starts, ?finishes, ?stopped, isPending_run delay hcalls hend, ?apart⟩
  case starts =>
    intro t task hc
    have honce : ∀ c' ∈ calls, .start task.id (t + delay) ∈ courseOf delay calls deadline c' → c'.1 = t := by
      intro c' _ h
      obtain ⟨task', -, ⟨-, heq⟩ | ⟨-, heq⟩⟩ := mem_courseOf_iff.mp h
      · have htime := congrArg TaskEvent.time heq
        simp only [TaskEvent.time] at htime
        omega
      · cases heq
    rw [hevents.count_eq, count_flatMap_of_once _ hcalls hc honce, courseOf_schedule]
    split <;> split <;> simp
  case finishes =>
    intro t task hc hid
    have honce : ∀ c' ∈ calls, .finish task.id (t + delay + task.length) ∈ courseOf delay calls deadline c' →
        c'.1 = t := by
      intro c' hc' h
      obtain ⟨task', htask', ⟨-, heq⟩ | ⟨-, heq⟩⟩ := mem_courseOf_iff.mp h
      · cases heq
      · rw [TaskEvent.finish.injEq] at heq
        exact hid c'.1 task' (by rw [← htask']; exact hc') heq.1.symm
    rw [hevents.count_eq, count_flatMap_of_once _ hcalls hc honce, courseOf_schedule]
    split <;> split <;> simp
  case stopped =>
    intro c hc hstops
    exact (hevents.filter _).trans (perm_filter_flatMap_courseOf hcalls hc hstops)
  case apart =>
    have hpairs := hevents.symm.pairwise (pairwise_flatMap_courseOf hcalls) fun {a b} h hb ha => (h ha hb).symm
    refine (hpairs.and horder).imp fun {a b} h ha hb => ?_
    obtain ⟨hapart, hle⟩ := h
    have hdelay := hapart ha hb
    omega

/-- The calls of a busy time: `a` and `b` run at once, `c` is put off by a call in its delay, `b` is stopped
as it runs, and `e` waits in the end. -/
def busyCalls : List (Nat × Call) :=
  [(0, .schedule ⟨"a", 30⟩), (15, .schedule ⟨"b", 30⟩), (30, .schedule ⟨"c", 5⟩), (35, .schedule ⟨"d", 1⟩),
    (50, .replace), (60, .schedule ⟨"e", 5⟩)]

/-- What happens in it. -/
def busyEvents : List TaskEvent :=
  [.start "a" 10, .start "b" 25, .finish "a" 40, .start "d" 45, .finish "d" 46]

theorem keepsTime_of_busyCalls :
    KeepsTime 10 busyCalls 65 (({ delay := 10 } : Debouncer).run 65 busyCalls).1
      (({ delay := 10 } : Debouncer).run 65 busyCalls).2 ∧
    (({ delay := 10 } : Debouncer).run 65 busyCalls).2 = busyEvents ∧
    (({ delay := 10 } : Debouncer).run 65 busyCalls).1.isPending = true := by
  have hlaw := keepsTime_run 10 busyCalls 65 (by decide) (by decide)
  have hevents := hlaw.events.trans (show List.Perm _ busyEvents by decide)
  -- No two events are at one time, so that there is only one order of time.
  have hapart : ∀ a ∈ busyEvents, ∀ b ∈ busyEvents, a.time ≤ b.time → b.time ≤ a.time → a = b := by decide
  refine ⟨hlaw, List.Perm.eq_of_pairwise ?_ hlaw.inOrder (by decide) hevents, by decide +kernel⟩
  exact fun a b ha hb => hapart a (hevents.mem_iff.mp ha) b hb

end Debouncer

end WarmCheck

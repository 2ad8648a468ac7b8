import Mathlib.Logic.Function.Basic
import WarmCheck.Daemon.Relay
import WarmCheck.Proofs.Batches
import WarmCheck.Proofs.Reactions
import WarmCheck.Proofs.Tasks

/-!
# The steps of watchers that ask for restarts

* `Tasks.batch_eq_some_iff`, `Tasks.enqueue_eq_some_iff`, `Tasks.restart_eq_some_iff`: what tasks do about requests.
* `Scenario.Qualifies`, `Scenario.judge_iff`: the batches that call for a restart.
* `Relay.step_collect_iff`, `Relay.collect_cases` and others: what each step does.
-/

namespace WarmCheck.Daemon

open Watch

/-! ## Requests -/

namespace Tasks

variable {s s' : Tasks} {t : TaskName}

theorem batch_eq_some_iff {calls : Bool} :
    s.batch t calls = some s' ↔
      s.watcher? t = some .watching ∧ s' = if calls then s.setWatcher t .asking else s := by
  rw [batch]
  split
  · next h => simp [h, eq_comm]
  · next h =>
    have hnot : s.watcher? t ≠ some .watching := h
    simp [hnot]

theorem enqueue_eq_some_iff (hrunning : s.supervisor = .running) :
    s.enqueue t = some s' ↔ s.watcher? t = some .asking ∧ s.queued < queueSize ∧
      s' = { s.setWatcher t .watching with queued := s.queued + 1 } := by
  rw [enqueue, hrunning]
  split
  · next h _ =>
    by_cases hroom : s.queued < queueSize
    · simp [h, hroom, eq_comm]
    · simp [hroom]
  · next hended => cases hended
  · next h _ =>
    have hnot : s.watcher? t ≠ some .asking := fun h' => h h' rfl
    simp [hnot]

theorem restart_eq_some_iff (hrunning : s.supervisor = .running) {startable : Bool} {stamp : UInt64} :
    s.restart startable stamp = some s' ↔ 0 < s.queued ∧
      s' = { s with queued := s.queued - 1, scene := { s.scene with startable }.restart stamp } := by
  rw [restart, hrunning]
  by_cases hqueued : 0 < s.queued
  · simp [hqueued, eq_comm]
  · simp [hqueued]

end Tasks

theorem generation_act? {s s' : Checker.Scene} {stamp : UInt64} {a : Checker.Act} (h : s.act? stamp a = some s') :
    s'.supervisor.generation = s.supervisor.generation := by
  cases a with
  | write p data =>
    obtain ⟨g, -, rfl⟩ := Option.map_eq_some_iff.mp h
    exact Supervisor.generation_takeChunk ..
  | exit =>
    obtain ⟨g, -, rfl⟩ := Option.map_eq_some_iff.mp h
    exact Supervisor.generation_stop s.supervisor
  | leaveGhost =>
    obtain ⟨g, -, rfl⟩ := Option.map_eq_some_iff.mp h
    rfl
  | ghostWrite p data =>
    obtain ⟨g, -, rfl⟩ := Option.map_eq_some_iff.mp h
    exact Supervisor.generation_takeChunk ..

/-! ## The watchers -/

namespace Asker

theorem task_inj {t u : Asker} : t.task = u.task ↔ t = u := by
  cases t <;> cases u <;> decide

theorem other_other (t : Asker) : t.other.other = t := by cases t <;> rfl

theorem other_ne (t : Asker) : t.other ≠ t := by cases t <;> decide

theorem both_eq (f : Asker → Nat) (t : Asker) : both f = f t + f t.other := by
  cases t
  · rfl
  · exact Nat.add_comm ..

theorem eq_or_eq_other (t u : Asker) : u = t ∨ u = t.other := by
  cases t <;> cases u <;> simp [other]

end Asker

namespace Scenario

variable (sc : Scenario)

/-- A batch for which the checker is to be restarted: something more than access has happened to a path with the
name of the head file, or known files are forgotten. -/
def Qualifies : Asker → KnownFiles → Batch Event → Prop
  | .head, _, b => ∃ e ∈ b.events, e.kind ≠ .access ∧ ∃ p ∈ e.paths, p.fileName? = sc.head.fileName?
  | .bigChanges, k, b => k.Forgets (sc.disk b.time) (KnownFiles.pathsOf b.events)

theorem judgeAll_concat (t : Asker) (k : KnownFiles) (bs : List (Batch Event)) (b : Batch Event) :
    sc.judgeAll t k (bs ++ [b]) = ((sc.judge t (sc.judgeAll t k bs).1 b).1,
      (sc.judgeAll t k bs).2 ++ [(sc.judge t (sc.judgeAll t k bs).1 b).2]) := by
  induction bs generalizing k with
  | nil => rfl
  | cons c bs ih => simp only [List.cons_append, judgeAll, ih]

theorem knownAfter_concat (t : Asker) (bs : List (Batch Event)) (b : Batch Event) :
    sc.knownAfter t (bs ++ [b]) = (sc.judge t (sc.knownAfter t bs) b).1 := by
  rw [knownAfter, judgeAll_concat]
  rfl

theorem qualifying_concat (t : Asker) (bs : List (Batch Event)) (b : Batch Event) :
    sc.qualifying t (bs ++ [b]) = sc.qualifying t bs + (sc.judge t (sc.knownAfter t bs) b).2.toNat := by
  rw [qualifying, judgeAll_concat, List.count_append, ← knownAfter, ← qualifying]
  cases (sc.judge t (sc.knownAfter t bs) b).2 <;> rfl

theorem isOrdered_knownAfter (t : Asker) (bs : List (Batch Event)) : (sc.knownAfter t bs).IsOrdered := by
  induction bs using List.reverseRecOn with
  | nil => exact sc.isOrdered
  | append_singleton bs b ih =>
    rw [knownAfter_concat]
    cases t with
    | head => exact ih
    | bigChanges => exact Reaction.isOrdered_reconcile ih (sc.disk b.time) b.events

/-- A watcher asks for a restart for the batches that qualify. -/
theorem judge_iff (t : Asker) {k : KnownFiles} (hk : k.IsOrdered) (b : Batch Event) :
    (sc.judge t k b).2 = true ↔ sc.Qualifies t k b := by
  cases t with
  | head => exact Reaction.movesHead_iff sc.head b.events
  | bigChanges => exact Reaction.reconcile_iff hk (sc.disk b.time) b.events

/-- The head watcher judges a batch by itself. -/
theorem verdict_congr (t : Asker) {k k' : KnownFiles} (h : t = .bigChanges → k = k') (b : Batch Event) :
    (sc.judge t k b).2 = (sc.judge t k' b).2 := by
  cases t with
  | head => rfl
  | bigChanges => rw [h rfl]

end Scenario

/-! ## What each step does -/

namespace Relay

variable {sc : Scenario} {s s' : Relay} {t : Asker}

theorem desks_setDesk (s : Relay) (t : Asker) (d : Desk) : (s.setDesk t d).desks = Function.update s.desks t d := by
  funext u
  rw [Function.update_apply]
  rfl

theorem step_pass_iff {later : Nat} : s.step sc (.pass later) = some s' ↔
    (s.now ≤ later ∧ ∀ t, s.isIdleUntil later t = true) ∧ s' = s.pass later := by
  rw [step]
  split
  · next h => simp [h, eq_comm]
  · next h => simp [h]

theorem step_collect_iff : s.step sc (.collect t) = some s' ↔ ∃ b left, (s.desks t).next? = some (b, left) ∧
    b.time = s.now ∧ s.collect sc t b left = some s' := by
  simp only [step]
  cases hnext : (s.desks t).next? with
  | none => simp
  | some got =>
    obtain ⟨b, left⟩ := got
    by_cases hdue : b.time = s.now
    · simp [hdue]
    · simp [hdue]

theorem collect_cases {b : Batch Event} {left : List (Nat × Option Event)}
    (hcollect : s.collect sc t b left = some s') :
    s.tasks.batch t.task (sc.judge t s.known b).2 = some s'.tasks ∧ s'.known = (sc.judge t s.known b).1 ∧
      s'.desks = Function.update s.desks t ((s.desks t).get b left s.now) ∧ s'.now = s.now ∧
      s'.isRestarting = s.isRestarting ∧ s'.restarts = s.restarts := by
  obtain ⟨tasks, hbatch, rfl⟩ := Option.map_eq_some_iff.mp hcollect
  exact ⟨hbatch, rfl, desks_setDesk .., rfl, rfl, rfl⟩

theorem exists_eq_collect (sc : Scenario) (h : s.tasks.watcher? t.task = some .watching) (b : Batch Event)
    (left : List (Nat × Option Event)) : ∃ s', s.collect sc t b left = some s' := by
  rw [collect, Tasks.batch_eq_some_iff.mpr ⟨h, rfl⟩]
  exact ⟨_, rfl⟩

theorem step_enqueue_cases (hstep : s.step sc (.enqueue t) = some s') :
    s.tasks.enqueue t.task = some s'.tasks ∧ s'.known = s.known ∧
      s'.desks = Function.update s.desks t { s.desks t with since := s.now } ∧ s'.now = s.now ∧
      s'.isRestarting = s.isRestarting ∧ s'.restarts = s.restarts := by
  obtain ⟨tasks, henqueue, rfl⟩ := Option.map_eq_some_iff.mp hstep
  exact ⟨henqueue, rfl, desks_setDesk .., rfl, rfl, rfl⟩

theorem step_take_iff (sc : Scenario) (hrunning : s.tasks.supervisor = .running) (startable : Bool) (stamp : UInt64) :
    s.step sc (.take startable stamp) = some s' ↔ s.isRestarting = false ∧ 0 < s.tasks.queued ∧ s' =
      { s with
        tasks := { s.tasks with
          queued := s.tasks.queued - 1
          scene := { s.tasks.scene with startable }.restart stamp }
        isRestarting := true
        restarts := s.restarts + 1 } := by
  rw [step]
  by_cases hrestarting : s.isRestarting = true
  · simp [hrestarting]
  · rw [if_neg hrestarting, Option.map_eq_some_iff]
    rw [Bool.not_eq_true] at hrestarting
    simp only [Tasks.restart_eq_some_iff hrunning, hrestarting, true_and]
    constructor
    · rintro ⟨tasks, ⟨hqueued, rfl⟩, rfl⟩
      exact ⟨hqueued, rfl⟩
    · rintro ⟨hqueued, rfl⟩
      exact ⟨_, ⟨hqueued, rfl⟩, rfl⟩

/-! ## Runs -/

theorem run_of_step {i : Step} (hstep : s.step sc i = some s') : s.run sc [i] = s' := by
  rw [run, List.foldl_cons, hstep]
  rfl

theorem run_append (s : Relay) (steps more : List Step) : s.run sc (steps ++ more) = (s.run sc steps).run sc more :=
  List.foldl_append

end Relay

end WarmCheck.Daemon

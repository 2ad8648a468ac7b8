import WarmCheck.Proofs.Supervision

/-!
# One checker at a time

A supervisor kills the checker that it holds before it launches another, and launches one for every restart,
whatever has become of the one before. So no two checkers ever live side by side, and none outlives the loop.

* `Supervisor.Deed`, `Supervisor.deeds`: what becomes of processes when something happens.
* `Supervisor.live_step`: the processes that live are those that the deeds leave.
* `Supervisor.handled`: what the loop handles before it ends.
* `Supervisor.IsSingle`: at most the checker of the current generation lives, and it is held.
* **`Supervisor.keepsOne_run`**: one checker at a time, for every history.
-/

namespace WarmCheck.Supervisor

/-! ## What becomes of processes -/

/-- What becomes of a process, by the generation that it was launched for. -/
inductive Deed where
  /-- The supervisor kills it, and waits for its end. -/
  | kill (generation : Nat)
  /-- The supervisor tries to launch it. -/
  | launch (generation : Nat) (ok : Bool)
  /-- It has ended by itself. -/
  | ends (generation : Nat)
  deriving DecidableEq, Repr

def Deed.apply (live : List Nat) : Deed → List Nat
  | kill g | ends g => live.filter (· != g)
  | launch g ok => if ok then g :: live else live

/-- Whether an attempt to launch a process succeeds, and for which generation it is. -/
def Deed.launch? : Deed → Option (Bool × Nat)
  | launch g ok => some (ok, g)
  | kill _ | ends _ => none

/-- What becomes of processes, in order, when something happens to a supervisor. -/
def deeds (s : Supervisor) : Input → List Deed
  | .restart ok => s.child.toList.map .kill ++ [.launch (s.generation + 1) ok]
  | .chunk .. => []
  | .dies g => [.ends g]
  | .exit => s.child.toList.map .ends
  | .shutdown => s.child.toList.map .kill

def deedsAlong (s : Supervisor) : List (UInt64 × Input) → List Deed
  | [] => []
  | (now, i) :: history => s.deeds i ++ (s.step now i).deedsAlong history

theorem live_stop (s : Supervisor) :
    s.stop.live = (s.child.toList.map Deed.kill).foldl Deed.apply s.live := by
  cases h : s.child <;> simp [stop, h, Deed.apply]

theorem live_step (s : Supervisor) (now : UInt64) (i : Input) :
    (s.step now i).live = (s.deeds i).foldl Deed.apply s.live := by
  cases i with
  | restart ok =>
    rw [step, live_restart, deeds, List.foldl_append, ← live_stop]
    rfl
  | chunk g p bs => exact live_takeChunk s g p bs now
  | dies g => rfl
  | exit =>
    rw [step, noticeExit_eq_stop, deeds]
    cases h : s.child <;> simp [stop, h, Deed.apply]
  | shutdown => exact live_stop s

/-! ## The loop -/

/-- What the loop of a supervisor handles of the things that happen: nothing after it is asked to end. -/
def handled : List (UInt64 × Input) → List (UInt64 × Input)
  | [] => []
  | x :: history => if x.2 = .shutdown then [x] else x :: handled history

/-- Whether the loop has ended. -/
def hasEnded (history : List (UInt64 × Input)) : Bool := history.any (·.2 = .shutdown)

theorem handled_eq_concat {history : List (UInt64 × Input)} (h : hasEnded history = true) :
    ∃ before now, handled history = before ++ [(now, .shutdown)] := by
  induction history with
  | nil => cases h
  | cons x history ih =>
    by_cases hx : x.2 = .shutdown
    · exact ⟨[], x.1, by rw [handled, if_pos hx, ← hx]; rfl⟩
    · obtain ⟨before, now, hbefore⟩ := ih (by simpa [hasEnded, hx] using h)
      exact ⟨x :: before, now, by rw [handled, if_neg hx, hbefore, List.cons_append]⟩

/-! ## At most one lives -/

/-- No checker lives but that of the current generation, and only while it is held. -/
structure IsSingle (s : Supervisor) : Prop where
  child : ∀ g, s.child = some g → g = s.generation
  live : s.live = [] ∨ s.live = [s.generation] ∧ s.child = some s.generation

theorem isSingle_launched (now : UInt64) (ok : Bool) : (launched now ok).IsSingle := by
  cases ok with
  | false => exact ⟨nofun, .inl rfl⟩
  | true => exact ⟨fun g hg => (Option.some.inj hg).symm, .inr ⟨rfl, rfl⟩⟩

theorem IsSingle.live_stop {s : Supervisor} (h : s.IsSingle) : s.stop.live = [] := by
  rw [Supervisor.live_stop]
  rcases h.live with hl | ⟨hl, hc⟩
  · cases s.child <;> simp [hl, Deed.apply]
  · simp [hl, hc, Deed.apply]

theorem IsSingle.stop {s : Supervisor} (h : s.IsSingle) : s.stop.IsSingle := by
  refine ⟨fun g hg => ?_, .inl h.live_stop⟩
  rw [child_stop] at hg
  cases hg

/-- After a restart exactly the new checker lives, if it could be launched. -/
theorem IsSingle.live_restart {s : Supervisor} (h : s.IsSingle) (ok : Bool) (now : UInt64) :
    (s.restart ok now).live = if ok then [s.generation + 1] else [] := by
  rw [Supervisor.live_restart, h.live_stop]

theorem IsSingle.step {s : Supervisor} (h : s.IsSingle) (now : UInt64) (i : Input) :
    (s.step now i).IsSingle := by
  cases i with
  | restart ok =>
    constructor
    · intro g hg
      rw [Supervisor.step, child_restart] at hg
      rw [Supervisor.step, generation_restart]
      cases ok <;> cases hg
      rfl
    · rw [Supervisor.step, h.live_restart, child_restart, generation_restart]
      cases ok
      · exact .inl rfl
      · exact .inr ⟨rfl, rfl⟩
  | chunk g p bs =>
    constructor
    · rw [Supervisor.step, child_takeChunk, generation_takeChunk]
      exact h.child
    · rw [Supervisor.step, live_takeChunk, child_takeChunk, generation_takeChunk]
      exact h.live
  | dies g =>
    refine ⟨h.child, ?_⟩
    -- the checker that has died is still held until its end is noticed
    show s.live.filter (· != g) = [] ∨ _
    rcases h.live with hl | ⟨hl, hc⟩
    · exact .inl (by rw [hl]; rfl)
    · by_cases hg : s.generation = g
      · exact .inl (by simp [hl, hg])
      · refine .inr ⟨?_, hc⟩
        show s.live.filter (· != g) = [s.generation]
        simp [hl, hg]
  | exit | shutdown => exact h.stop

theorem IsSingle.run {s : Supervisor} (h : s.IsSingle) (history : List (UInt64 × Input)) :
    (s.run history).IsSingle := by
  induction history generalizing s with
  | nil => exact h
  | cons x history ih => exact ih (h.step x.1 x.2)

theorem IsSingle.length_live {s : Supervisor} (h : s.IsSingle) : s.live.length ≤ 1 := by
  rcases h.live with hl | ⟨hl, -⟩ <;> simp [hl]

theorem length_foldl_apply_le {ds : List Deed} (h : ∀ d ∈ ds, d.launch? = none) (live : List Nat) :
    (ds.foldl Deed.apply live).length ≤ live.length := by
  induction ds generalizing live with
  | nil => exact Nat.le_refl _
  | cons d ds ih =>
    have hd : (Deed.apply live d).length ≤ live.length := by
      cases d with
      | kill g | ends g => exact List.length_filter_le _ _
      | launch g ok => exact absurd (h _ List.mem_cons_self) nofun
    exact (ih (fun d' hd' => h d' (List.mem_cons_of_mem d hd')) _).trans hd

/-- Not even while something is handled do two checkers live: one is killed before the next is launched. -/
theorem IsSingle.length_between {s : Supervisor} (h : s.IsSingle) (i : Input) {done : List Deed}
    (hdone : done <+: s.deeds i) : (done.foldl Deed.apply s.live).length ≤ 1 := by
  have hends : (∀ d ∈ done, d.launch? = none) → (done.foldl Deed.apply s.live).length ≤ 1 := fun hnone =>
    (length_foldl_apply_le hnone s.live).trans h.length_live
  cases i with
  | restart ok =>
    rcases List.prefix_concat_iff.mp hdone with rfl | hkills
    · have hall := live_step s 0 (.restart ok)
      rw [deeds] at hall
      rw [← hall]
      exact (h.step 0 (.restart ok)).length_live
    · refine hends fun d hd => ?_
      obtain ⟨g, -, rfl⟩ := List.mem_map.mp (hkills.subset hd)
      rfl
  | chunk g p bs => exact hends fun d hd => nomatch hdone.subset hd
  | dies g =>
    refine hends fun d hd => ?_
    obtain rfl := List.mem_singleton.mp (hdone.subset hd)
    rfl
  | exit | shutdown =>
    refine hends fun d hd => ?_
    obtain ⟨g, -, rfl⟩ := List.mem_map.mp (hdone.subset hd)
    rfl

/-! ## The launches -/

/-- Whether the program can be launched, for an input that asks for a restart. -/
def Input.restart? : Input → Option Bool
  | restart ok => some ok
  | chunk .. | dies _ | exit | shutdown => none

def restarts (history : List (UInt64 × Input)) : List Bool := history.filterMap (·.2.restart?)

theorem restarts_cons (x : UInt64 × Input) (history : List (UInt64 × Input)) :
    restarts (x :: history) = x.2.restart?.toList ++ restarts history := by
  rw [restarts, List.filterMap_cons]
  cases x.2.restart? <;> rfl

theorem generation_step_eq (s : Supervisor) (now : UInt64) (i : Input) :
    (s.step now i).generation = s.generation + i.restart?.toList.length := by
  rw [generation_step]
  cases i <;> rfl

theorem launches_deeds (s : Supervisor) (i : Input) :
    (s.deeds i).filterMap Deed.launch? = i.restart?.toList.zipIdx (s.generation + 1) := by
  have hnone : ∀ f : Nat → Deed, (∀ g, (f g).launch? = none) →
      (s.child.toList.map f).filterMap Deed.launch? = [] := by
    intro f hf
    cases s.child <;> simp [hf]
  cases i with
  | restart ok =>
    rw [deeds, List.filterMap_append, hnone _ fun _ => rfl]
    rfl
  | chunk g p bs => rfl
  | dies g => rfl
  | exit | shutdown => exact hnone _ fun _ => rfl

theorem generation_run (s : Supervisor) (history : List (UInt64 × Input)) :
    (s.run history).generation = s.generation + (restarts history).length := by
  induction history generalizing s with
  | nil => rfl
  | cons x history ih =>
    calc (s.run (x :: history)).generation
        = (s.step x.1 x.2).generation + (restarts history).length := ih (s.step x.1 x.2)
      _ = s.generation + (restarts (x :: history)).length := by
        rw [generation_step_eq, restarts_cons, List.length_append, Nat.add_assoc]

/-- Every restart is one attempt to launch a checker, for the next generation; there are no others. -/
theorem launches_deedsAlong (s : Supervisor) (history : List (UInt64 × Input)) :
    (s.deedsAlong history).filterMap Deed.launch? = (restarts history).zipIdx (s.generation + 1) := by
  induction history generalizing s with
  | nil => rfl
  | cons x history ih =>
    rw [deedsAlong, List.filterMap_append, ih, launches_deeds, generation_step_eq, restarts_cons,
      List.zipIdx_append, Nat.add_right_comm]

/-! ## One checker at a time -/

theorem live_run (s : Supervisor) (history : List (UInt64 × Input)) :
    (s.run history).live = (s.deedsAlong history).foldl Deed.apply s.live := by
  induction history generalizing s with
  | nil => rfl
  | cons x history ih =>
    rw [deedsAlong, List.foldl_append, ← live_step s x.1 x.2]
    exact ih (s.step x.1 x.2)

/-- What becomes of processes from the launch on. -/
def deedsFrom (t₀ : UInt64) (ok : Bool) (history : List (UInt64 × Input)) : List Deed :=
  .launch 1 ok :: (launched t₀ ok).deedsAlong history

/-- The law of the checkers of a supervisor that is launched and whose loop handles a history. -/
structure KeepsOne (t₀ : UInt64) (ok : Bool) (history : List (UInt64 × Input)) (s : Supervisor) : Prop where
  length_live : s.live.length ≤ 1
  /-- The checker that lives is that of the current generation, and it is held. -/
  held : ∀ g ∈ s.live, g = s.generation ∧ s.child = some g
  generation : s.generation = 1 + (restarts (handled history)).length
  /-- There is one attempt to launch a checker at the beginning and one for every restart, whatever has become
  of the checker before it, and each is for a generation of its own. -/
  launches : (deedsFrom t₀ ok (handled history)).filterMap Deed.launch? =
    (ok :: restarts (handled history)).zipIdx 1
  /-- These deeds are all that becomes of processes. -/
  live : s.live = (deedsFrom t₀ ok (handled history)).foldl Deed.apply []
  /-- Not even while the next thing is handled do two checkers live. -/
  between : ∀ i done, done <+: s.deeds i → (done.foldl Deed.apply s.live).length ≤ 1
  /-- After a restart the new checker lives, if it could be launched, and no other. -/
  restart : ∀ ok' now, (s.restart ok' now).live = if ok' then [s.generation + 1] else []
  /-- No checker is alive once the loop has ended. -/
  ended : hasEnded history = true → s.live = []

/-- **One checker at a time**: whatever restarts, ends of checkers, output and failures to launch one happen in
whatever order, at most the checker of the current generation lives, and none when the loop has ended. -/
theorem keepsOne_run (t₀ : UInt64) (ok : Bool) (history : List (UInt64 × Input)) :
    KeepsOne t₀ ok history ((launched t₀ ok).run (handled history)) := by
  have hrun : ∀ h, ((launched t₀ ok).run h).IsSingle := (isSingle_launched t₀ ok).run
  have hsingle := hrun (handled history)
  have hfirst : (launched t₀ ok).generation = 1 := generation_start _ _
  refine ⟨hsingle.length_live, ?held, ?generation, ?launches, ?live, fun i _ => hsingle.length_between i,
    hsingle.live_restart, ?ended⟩
  case held =>
    intro g hg
    rcases hsingle.live with hl | ⟨hl, hc⟩
    · rw [hl] at hg
      cases hg
    · rw [hl, List.mem_singleton] at hg
      exact ⟨hg, hg ▸ hc⟩
  case generation => rw [generation_run, hfirst]
  case launches =>
    have hlater := launches_deedsAlong (launched t₀ ok) (handled history)
    rw [hfirst] at hlater
    rw [deedsFrom, List.zipIdx_cons, ← hlater]
    rfl
  case live =>
    rw [live_run, deedsFrom, List.foldl_cons]
    cases ok <;> rfl
  case ended =>
    intro hended
    obtain ⟨before, now, hbefore⟩ := handled_eq_concat hended
    rw [hbefore, run, List.foldl_append]
    exact (hrun before).live_stop

/-- The second checker dies unnoticed, the third cannot be launched, and the fourth is killed at the end. -/
example : deedsFrom 0 true (handled [(1, .restart true), (2, .dies 2), (3, .restart false), (4, .restart true),
    (5, .shutdown), (6, .restart true)]) =
      [.launch 1 true, .kill 1, .launch 2 true, .ends 2, .kill 2, .launch 3 false, .launch 4 true, .kill 4] := by
  decide

end WarmCheck.Supervisor

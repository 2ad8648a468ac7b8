import Mathlib.Data.List.Basic
import Mathlib.Data.List.Induction
import WarmCheck.Daemon.Lifecycle

/-!
# Two daemons of a workspace

Two daemons that take turns in any order, each of them one step at a time.

* `Pair.step`, `Pair.run`: a turn, and turns one after the other.
* `Pair.side`, `Side.other`: either daemon; `Pair.Meets`: what a daemon finds the other one at when it comes to a
  stage.
* `Pair.run_of_turns`: what each of some turns preserves.
* `Pair.exists_turn`: a daemon that is past a gate has taken its step there.
* `Pair.meets_concat`: the meetings after one turn more.
-/

namespace WarmCheck.Daemon

/-! ## Stages -/

namespace Stage

/-- Whether the daemon is ending or has ended. -/
def isDown : Stage → Bool
  | endTasks _ | releaseEndpoint _ | readMarker _ | releaseMarker _ | ended _ => true
  | _ => false

/-- Whether the daemon has taken its step at a stage and is not ending. -/
def isPast (gate s : Stage) : Bool := !s.isDown && s.rank < gate.rank

/-- Whether the daemon has cleared the marker and is not ending. -/
def hasCleared : Stage → Bool := isPast clearMarker

/-- Whether the daemon has opened its marker and is not ending. -/
def hasOpened : Stage → Bool := isPast openMarker

/-- Whether the daemon has written its marker and is not ending. -/
def hasMarked : Stage → Bool := isPast writeMarker

/-- Whether the daemon has bound its endpoint and is not ending. -/
def hasBound : Stage → Bool := isPast bind

/-- Whether a daemon that has served has still to release its endpoint. -/
def willRelease : Stage → Bool
  | endTasks (.stopped _) | releaseEndpoint _ => true
  | _ => false

/-- The steps by which a daemon claims its artifacts. -/
def isGate : Stage → Bool
  | clearMarker | openMarker | writeMarker | bind => true
  | _ => false

theorem isPast_iff {gate s : Stage} : isPast gate s = true ↔ s.isDown = false ∧ s.rank < gate.rank := by
  simp [isPast]

theorem ne_of_rank_lt {s t : Stage} (h : s.rank < t.rank) : s ≠ t := fun heq => Nat.ne_of_lt h (congrArg rank heq)

theorem eq_of_rank {gate s : Stage} (hgate : gate.isGate = true) (h : s.rank = gate.rank) : s = gate := by
  cases gate with
  | clearMarker | openMarker | writeMarker | bind => cases s <;> first | rfl | cases h
  | _ => cases hgate

theorem rank_of_isGate {gate : Stage} (h : gate.isGate = true) :
    bind.rank ≤ gate.rank ∧ gate.rank ≤ clearMarker.rank := by
  cases gate with
  | clearMarker | openMarker | writeMarker | bind => decide
  | _ => cases h

theorem rank_of_hasCleared {k : Stage} (h : k.hasCleared = true) : k.rank < clearMarker.rank := (isPast_iff.mp h).2

theorem rank_of_hasOpened {k : Stage} (h : k.hasOpened = true) : k.rank < openMarker.rank := (isPast_iff.mp h).2

theorem rank_of_hasMarked {k : Stage} (h : k.hasMarked = true) : k.rank < writeMarker.rank := (isPast_iff.mp h).2

theorem hasOpened_of_hasMarked {k : Stage} (h : k.hasMarked = true) : k.hasOpened = true :=
  isPast_iff.mpr ⟨(isPast_iff.mp h).1, Nat.lt_trans (isPast_iff.mp h).2 (by decide)⟩

theorem hasCleared_of_hasOpened {k : Stage} (h : k.hasOpened = true) : k.hasCleared = true :=
  isPast_iff.mpr ⟨(isPast_iff.mp h).1, Nat.lt_trans (isPast_iff.mp h).2 (by decide)⟩

/-- A daemon that has opened its marker is to write it next, or has. -/
theorem eq_or_hasMarked {k : Stage} (h : k.hasOpened = true) : k = writeMarker ∨ k.hasMarked = true := by
  obtain ⟨hup, hrank⟩ := isPast_iff.mp h
  rcases Nat.lt_or_ge k.rank writeMarker.rank with hlt | hge
  · exact .inr (isPast_iff.mpr ⟨hup, hlt⟩)
  · exact .inl (eq_of_rank rfl (Nat.le_antisymm (Nat.le_of_lt_succ hrank) hge))

end Stage

theorem Slot.of_bind {s t : Slot} {pid : Nat} (h : s.bind pid = .ok t) :
    s = .vacant ∧ t = .bound pid Disk.dirMode := by
  cases s with
  | vacant =>
    rw [bind, Except.ok.injEq] at h
    exact ⟨rfl, h.symm⟩
  | fixed entry => cases entry <;> cases h
  | _ => cases h

theorem Artifacts.of_bind {a b : Artifacts} {pid : Nat} (h : a.bind pid = .ok b) :
    a.address = .ok () ∧ a.endpoint = .vacant ∧ b = { a with endpoint := .bound pid Disk.dirMode } := by
  rw [bind] at h
  cases haddress : a.address with
  | error e => rw [haddress] at h; cases h
  | ok u =>
    rw [haddress] at h
    cases hbind : a.endpoint.bind pid with
    | error e => rw [hbind] at h; cases h
    | ok s =>
      obtain ⟨hvacant, rfl⟩ := Slot.of_bind hbind
      rw [hbind] at h
      cases h
      exact ⟨rfl, hvacant, rfl⟩

namespace Instance

variable (w : Workspace) (launch : Tasks) (a : Artifacts) {i : Instance}

theorem pid_step (i : Instance) : (i.step w launch a).2.pid = i.pid := by
  obtain ⟨pid, stage, tasks, isListening⟩ := i
  cases stage with
  | prepare | connect | openMarker | bind | protect =>
    simp only [step]
    split <;> rfl
  | _ => rfl

theorem address_step (i : Instance) : (i.step w launch a).1.address = a.address := by
  obtain ⟨pid, stage, tasks, isListening⟩ := i
  cases stage with
  | prepare | connect | openMarker | protect =>
    simp only [step]
    split <;> rfl
  | bind =>
    simp only [step]
    split
    · next b hb =>
      obtain ⟨-, -, rfl⟩ := Artifacts.of_bind hb
      rfl
    · rfl
  | _ => rfl

theorem isDown_step (h : i.stage.isDown = true) : (i.step w launch a).2.stage.isDown = true := by
  obtain ⟨pid, stage, tasks, isListening⟩ := i
  cases stage with
  | endTasks ending => cases ending <;> rfl
  | releaseEndpoint | releaseMarker | ended => rfl
  | readMarker ending =>
    simp only [step, moveTo]
    split <;> rfl
  | _ => cases h

theorem rank_step_le (i : Instance) : (i.step w launch a).2.stage.rank ≤ i.stage.rank := by
  cases h : i.stage.isRest with
  | true => exact Nat.le_of_eq (by rw [step_of_isRest h])
  | false => exact Nat.le_of_lt (rank_step_lt h w launch a)

/-- A daemon that goes on takes one stage after the other, but for the check of an endpoint where nothing is, and for
the last one before it serves. -/
theorem rank_le_succ_step (hup : (i.step w launch a).2.stage.isDown = false) :
    i.stage.rank ≤ (i.step w launch a).2.stage.rank + 1 ∨
      Stage.clearMarker.rank ≤ (i.step w launch a).2.stage.rank ∨ i.stage.rank < Stage.bind.rank := by
  obtain ⟨pid, stage, tasks, isListening⟩ := i
  cases stage with
  | clearEndpoint | clearMarker | writeMarker | launch => exact .inl (Nat.le_refl _)
  | prepare | connect | openMarker | bind =>
    simp only [step] at hup ⊢
    split at hup
    · first | exact .inl (Nat.le_refl _) | cases hup
    · first | exact .inl (Nat.le_refl _) | cases hup
  | probe =>
    simp only [step, moveTo]
    split
    · exact .inl (Nat.le_refl _)
    · exact .inr (.inl (Nat.le_refl _))
  | _ => exact .inr (.inr (by simp [Stage.rank]))

/-- A daemon comes past a gate by its step there and by no other. -/
theorem eq_or_isPast {gate : Stage} (hgate : gate.isGate = true)
    (h : Stage.isPast gate (i.step w launch a).2.stage = true) : i.stage = gate ∨ Stage.isPast gate i.stage = true := by
  obtain ⟨hup, hrank⟩ := Stage.isPast_iff.mp h
  have hbefore : i.stage.isDown = false := by
    by_contra hdown
    rw [isDown_step w launch a (eq_true_of_ne_false hdown)] at hup
    cases hup
  by_cases hlt : i.stage.rank < gate.rank
  · exact .inr (Stage.isPast_iff.mpr ⟨hbefore, hlt⟩)
  · obtain ⟨hlow, hhigh⟩ := Stage.rank_of_isGate hgate
    have hstep := rank_le_succ_step w launch a hup
    exact .inl (Stage.eq_of_rank hgate (by omega))

/-- A daemon comes to the stage after a gate by its step there and by no other. -/
theorem eq_of_step {gate next : Stage} (hgate : gate.isGate = true) (hrank : gate.rank = next.rank + 1)
    (hup : next.isDown = false) (hrest : next.isRest = false) (h : (i.step w launch a).2.stage = next) :
    i.stage = gate := by
  refine (eq_or_isPast w launch a hgate (Stage.isPast_iff.mpr ⟨by rw [h, hup], by rw [h]; omega⟩)).resolve_right ?_
  intro hpast
  have hle := (Stage.isPast_iff.mp hpast).2
  cases hi : i.stage.isRest with
  | true =>
    rw [step_of_isRest hi] at h
    rw [h, hrest] at hi
    cases hi
  | false =>
    have hlt := rank_step_lt hi w launch a
    rw [h] at hlt
    omega

/-- A daemon that does not give up at `bind` puts a socket where nothing was. -/
theorem of_bind (hat : i.stage = .bind) (hup : (i.step w launch a).2.stage.isDown = false) :
    a.address = .ok () ∧ a.endpoint = .vacant ∧
      (i.step w launch a).1 = { a with endpoint := .bound i.pid Disk.dirMode } ∧
      (i.step w launch a).2.stage = .listen := by
  simp only [step, hat] at hup ⊢
  split at hup
  · next b hb =>
    obtain ⟨haddress, hvacant, rfl⟩ := Artifacts.of_bind hb
    exact ⟨haddress, hvacant, rfl, rfl⟩
  · cases hup

end Instance

/-! ## Turns -/

/-- One of two daemons. -/
inductive Side where
  | left
  | right
  deriving DecidableEq, Repr

/-- Two daemons and the artifacts of their workspace. -/
structure Pair where
  artifacts : Artifacts
  left : Instance
  right : Instance

namespace Pair

section Turns

variable (w : Workspace) (launch : Side → Tasks)

/-- One daemon takes its next step. -/
def step (p : Pair) : Side → Pair
  | .left =>
    let (artifacts, left) := p.left.step w (launch .left) p.artifacts
    { p with artifacts, left }
  | .right =>
    let (artifacts, right) := p.right.step w (launch .right) p.artifacts
    { p with artifacts, right }

/-- The daemons take turns. -/
def run (p : Pair) (turns : List Side) : Pair := turns.foldl (step w launch) p

end Turns

variable {w : Workspace} {launch : Side → Tasks}

theorem run_append (p : Pair) (turns more : List Side) :
    p.run w launch (turns ++ more) = (p.run w launch turns).run w launch more := List.foldl_append

theorem run_concat (p : Pair) (turns : List Side) (s : Side) :
    p.run w launch (turns ++ [s]) = (p.run w launch turns).step w launch s := by
  rw [run_append]; rfl

/-- What every turn preserves is preserved. -/
theorem run_preserves {P : Pair → Prop} (hstep : ∀ p s, P p → P (p.step w launch s)) {p : Pair} (h : P p)
    (turns : List Side) : P (p.run w launch turns) := by
  induction turns generalizing p with
  | nil => exact h
  | cons s turns ih => exact ih (hstep p s h)

theorem pid_run (p : Pair) (turns : List Side) :
    (p.run w launch turns).left.pid = p.left.pid ∧ (p.run w launch turns).right.pid = p.right.pid := by
  refine run_preserves (P := fun q => q.left.pid = p.left.pid ∧ q.right.pid = p.right.pid) ?_ ⟨rfl, rfl⟩ _
  rintro q (_ | _) ⟨hl, hr⟩
  · exact ⟨(Instance.pid_step ..).trans hl, hr⟩
  · exact ⟨hl, (Instance.pid_step ..).trans hr⟩

theorem address_run (p : Pair) (turns : List Side) :
    (p.run w launch turns).artifacts.address = p.artifacts.address := by
  refine run_preserves (P := fun q => q.artifacts.address = p.artifacts.address) ?_ rfl _
  rintro q (_ | _) h
  · exact (Instance.address_step ..).trans h
  · exact (Instance.address_step ..).trans h

/-! ## Either side -/

end Pair

/-- The other daemon. -/
def Side.other : Side → Side
  | left => right
  | right => left

@[simp] theorem Side.other_other (s : Side) : s.other.other = s := by cases s <;> rfl

theorem Side.eq_or_eq_other (s t : Side) : t = s ∨ t = s.other := by cases s <;> cases t <;> simp [other]

theorem Side.forall_iff {P : Side → Prop} (s : Side) : (∀ t, P t) ↔ P s ∧ P s.other := by
  constructor
  · exact fun h => ⟨h s, h s.other⟩
  · rintro ⟨hs, hother⟩ t
    rcases s.eq_or_eq_other t with rfl | rfl
    · exact hs
    · exact hother

namespace Pair

/-- One of the daemons. -/
def side (p : Pair) : Side → Instance
  | .left => p.left
  | .right => p.right

/-- When a daemon takes its step at a stage, it meets the other one at a stage of some kind. -/
def Meets (w : Workspace) (launch : Side → Tasks) (p : Pair) (s : Side) (turns : List Side) (stage : Stage)
    (kind : Stage → Bool) : Prop :=
  ∃ before after, turns = before ++ s :: after ∧ ((p.run w launch before).side s).stage = stage ∧
    kind ((p.run w launch before).side s.other).stage = true

theorem side_step (p : Pair) (s : Side) :
    (p.step w launch s).side s = ((p.side s).step w (launch s) p.artifacts).2 := by cases s <;> rfl

theorem artifacts_step (p : Pair) (s : Side) :
    (p.step w launch s).artifacts = ((p.side s).step w (launch s) p.artifacts).1 := by cases s <;> rfl

theorem other_step (p : Pair) (s : Side) : (p.step w launch s).side s.other = p.side s.other := by
  cases s <;> rfl

theorem side_step_other (p : Pair) (s : Side) : (p.step w launch s.other).side s = p.side s := by
  cases s <;> rfl

theorem pid_step (p : Pair) (s t : Side) : ((p.step w launch t).side s).pid = (p.side s).pid := by
  rcases s.eq_or_eq_other t with rfl | rfl
  · rw [side_step, Instance.pid_step]
  · rw [side_step_other]

theorem pid_side_run (p : Pair) (turns : List Side) (s : Side) :
    ((p.run w launch turns).side s).pid = (p.side s).pid :=
  run_preserves (P := fun q => (q.side s).pid = (p.side s).pid) (fun q t h => (pid_step q s t).trans h) rfl
    turns

/-- What each of the turns preserves is preserved. -/
theorem run_of_turns {P : Pair → Prop} {p : Pair} {turns : List Side}
    (hstep : ∀ before s after, turns = before ++ s :: after → P (p.run w launch before) →
      P ((p.run w launch before).step w launch s)) (h : P p) : P (p.run w launch turns) := by
  induction turns using List.reverseRecOn with
  | nil => exact h
  | append_singleton turns s ih =>
    rw [run_concat]
    refine hstep turns s [] rfl (ih fun before t after hturns => hstep before t (after ++ [s]) ?_)
    rw [hturns, List.append_assoc, List.cons_append]

theorem isDown_of_isDown_side_run {p : Pair} {s : Side} (turns : List Side)
    (h : ((p.run w launch turns).side s).stage.isDown = false) : (p.side s).stage.isDown = false := by
  by_contra hne
  have hdown : ((p.run w launch turns).side s).stage.isDown = true := by
    refine run_preserves (P := fun q => (q.side s).stage.isDown = true) ?_ (eq_true_of_ne_false hne) _
    intro q t hq
    rcases s.eq_or_eq_other t with rfl | rfl
    · rw [side_step]
      exact Instance.isDown_step _ _ _ hq
    · rwa [side_step_other]
  exact absurd (h.symm.trans hdown) Bool.false_ne_true

/-- A daemon that has come past a gate has taken its step at the gate. -/
theorem exists_turn {s : Side} {gate : Stage} (hgate : gate.isGate = true) {p : Pair}
    (h0 : Stage.isPast gate (p.side s).stage = false) {turns : List Side}
    (h : Stage.isPast gate ((p.run w launch turns).side s).stage = true) :
    ∃ before after, turns = before ++ s :: after ∧ ((p.run w launch before).side s).stage = gate := by
  induction turns using List.reverseRecOn with
  | nil => exact absurd h (by rw [run, List.foldl_nil, h0]; exact Bool.noConfusion)
  | append_singleton turns t ih =>
    have hearlier : Stage.isPast gate ((p.run w launch turns).side s).stage = true →
        ∃ before after, turns ++ [t] = before ++ s :: after ∧
          ((p.run w launch before).side s).stage = gate := by
      intro hpast
      obtain ⟨before, after, rfl, hat⟩ := ih hpast
      exact ⟨before, after ++ [t], by rw [List.append_assoc, List.cons_append], hat⟩
    rw [run_concat] at h
    rcases s.eq_or_eq_other t with rfl | rfl
    · rw [side_step] at h
      rcases Instance.eq_or_isPast _ _ _ hgate h with hat | hpast
      · exact ⟨turns, [], rfl, hat⟩
      · exact hearlier hpast
    · rw [side_step_other] at h
      exact hearlier h

/-! ## Meetings -/

theorem rank_run_le (p : Pair) (turns : List Side) (s : Side) :
    ((p.run w launch turns).side s).stage.rank ≤ (p.side s).stage.rank := by
  refine run_preserves (P := fun q => (q.side s).stage.rank ≤ (p.side s).stage.rank) ?_ (Nat.le_refl _) turns
  intro q t h
  rcases s.eq_or_eq_other t with rfl | rfl
  · rw [side_step]
    exact Nat.le_trans (Instance.rank_step_le ..) h
  · rwa [side_step_other]

section Meetings

variable {p : Pair} {s : Side} {turns : List Side} {stage : Stage} {kind : Stage → Bool}

theorem meets_concat (t : Side) :
    p.Meets w launch s (turns ++ [t]) stage kind ↔
      p.Meets w launch s turns stage kind ∨ t = s ∧ ((p.run w launch turns).side s).stage = stage ∧
        kind ((p.run w launch turns).side s.other).stage = true := by
  constructor
  · rintro ⟨before, after, hturns, hat, hkind⟩
    rcases List.eq_nil_or_concat' after with rfl | ⟨rest, last, rfl⟩
    · obtain ⟨rfl, htail⟩ := List.append_inj' hturns rfl
      exact .inr ⟨List.singleton_inj.mp htail, hat, hkind⟩
    · rw [← List.cons_append, ← List.append_assoc] at hturns
      exact .inl ⟨before, rest, (List.append_inj' hturns rfl).1, hat, hkind⟩
  · rintro (⟨before, after, rfl, hat, hkind⟩ | ⟨rfl, hat, hkind⟩)
    · exact ⟨before, after ++ [t], by rw [List.append_assoc, List.cons_append], hat, hkind⟩
    · exact ⟨turns, [], rfl, hat, hkind⟩

/-- A turn of the one daemon is no meeting of the other one. -/
theorem meets_other_concat :
    p.Meets w launch s.other (turns ++ [s]) stage kind ↔ p.Meets w launch s.other turns stage kind := by
  rw [meets_concat]
  exact or_iff_left fun h => by cases s <;> cases h.1

theorem not_meets_nil : ¬p.Meets w launch s [] stage kind := by
  rintro ⟨before, after, hturns, -⟩
  cases before <;> cases hturns

theorem Meets.of_run {before after : List Side} (h : (p.run w launch before).Meets w launch s after stage kind) :
    p.Meets w launch s (before ++ after) stage kind := by
  obtain ⟨first, rest, rfl, hat, hkind⟩ := h
  refine ⟨before ++ first, rest, (List.append_assoc ..).symm, ?_⟩
  rw [run_append]
  exact ⟨hat, hkind⟩

/-- A moment, and the state after it. -/
theorem Meets.exists_run (h : p.Meets w launch s turns stage kind) :
    ∃ first rest, turns = first ++ [s] ++ rest ∧ ((p.run w launch first).side s).stage = stage ∧
      kind ((p.run w launch first).side s.other).stage = true ∧
      p.run w launch turns = ((p.run w launch first).step w launch s).run w launch rest := by
  obtain ⟨first, rest, rfl, hat, hkind⟩ := h
  exact ⟨first, rest, List.append_cons .., hat, hkind, run_append ..⟩

/-- After its step at a stage a daemon does not come back to it. -/
theorem Meets.rank_self (h : p.Meets w launch s turns stage kind) (hstage : stage.isRest = false) :
    ((p.run w launch turns).side s).stage.rank < stage.rank := by
  obtain ⟨first, rest, -, hat, -, hrun⟩ := h.exists_run
  rw [hrun]
  refine Nat.lt_of_le_of_lt (rank_run_le ..) ?_
  rw [side_step, ← hat]
  exact Instance.rank_step_lt (by rw [hat, hstage]) ..

/-- The daemon that has been met has not gone back since. -/
theorem Meets.rank_other (h : p.Meets w launch s turns stage kind) {n : Nat}
    (hkind : ∀ k, kind k = true → k.rank < n) : ((p.run w launch turns).side s.other).stage.rank < n := by
  obtain ⟨first, rest, -, -, hmet, hrun⟩ := h.exists_run
  rw [hrun]
  refine Nat.lt_of_le_of_lt (rank_run_le ..) ?_
  rw [other_step]
  exact hkind _ hmet

/-- Two meetings, one of each daemon, exclude each other if at each of them the other one is past the stage of its own:
neither could come first. -/
theorem Meets.not_meets_other {stage' : Stage} {kind' : Stage → Bool} (h : p.Meets w launch s turns stage kind)
    (hkind : ∀ k, kind k = true → k.rank < stage'.rank) (hkind' : ∀ k, kind' k = true → k.rank < stage.rank) :
    ¬p.Meets w launch s.other turns stage' kind' := by
  intro h'
  induction turns using List.reverseRecOn with
  | nil => exact not_meets_nil h
  | append_singleton turns t ih =>
    rcases (meets_concat t).mp h with hbefore | ⟨rfl, hat, -⟩
    · rcases (meets_concat t).mp h' with hbefore' | ⟨rfl, hat', -⟩
      · exact ih hbefore hbefore'
      · exact Stage.ne_of_rank_lt (hbefore.rank_other hkind) hat'
    · have hrank := (meets_other_concat.mp h').rank_other hkind'
      rw [Side.other_other] at hrank
      exact Stage.ne_of_rank_lt hrank hat

end Meetings

end Pair

end WarmCheck.Daemon

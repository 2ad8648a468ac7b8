import WarmCheck.Proofs.Contest
import WarmCheck.Proofs.Ledger

/-!
# Succession

A daemon that has served shuts down while another one starts in the same workspace. The new daemon
comes to serve in many orders of their steps; what it has claimed outlives the old one only if the old
one does not release it: the endpoint is taken away whoever listens there, the marker only if the old one
has read no other name there.

* `Stage.hasReleased`, `Stage.isLeaving`, `Stage.willRead`: how far the old daemon has come.
* `Pair.endpoint_of_bind`: what becomes of the endpoint of the new daemon.
* `Pair.Handling`, `Pair.IsSuccession.handling_run`: what becomes of its marker.
* **`Pair.endures_iff`**: exactly when the endpoint and the marker outlive the old daemon.
-/

namespace WarmCheck.Daemon

/-! ## The old daemon -/

namespace Stage

/-- Whether a daemon that has served has released its endpoint. -/
def hasReleased : Stage → Bool
  | readMarker _ | releaseMarker _ | ended _ => true
  | _ => false

/-- Whether a daemon that has served is ending or over. -/
def isLeaving (s : Stage) : Bool := s.willRelease || s.hasReleased

/-- Whether a daemon that has served has still to look at the marker. -/
def willRead : Stage → Bool
  | endTasks (.stopped _) | releaseEndpoint _ | readMarker _ => true
  | _ => false

variable {ending : Ending}

theorem rank_of_willRead {s : Stage} (h : s.willRead = true) : (releaseMarker ending).rank < s.rank := by
  cases s with
  | endTasks | releaseEndpoint | readMarker => simp [rank]
  | _ => cases h

theorem rank_of_isOver {s : Stage} (h : s.isOver = true) : s.rank < (releaseMarker ending).rank := by
  cases s with
  | ended => exact Nat.zero_lt_one
  | _ => cases h

/-- A daemon that is leaving has still to look at the marker, or takes it away next, or is over. -/
theorem cases_of_isLeaving {s : Stage} (h : s.isLeaving = true) :
    s.willRead = true ∨ (∃ ending, s = releaseMarker ending) ∨ s.isOver = true := by
  cases s with
  | endTasks ending =>
    cases ending with
    | refused => cases h
    | stopped => exact .inl rfl
  | releaseEndpoint | readMarker => exact .inl rfl
  | releaseMarker ending => exact .inr (.inl ⟨ending, rfl⟩)
  | ended => exact .inr (.inr rfl)
  | _ => cases h

end Stage

namespace Instance

variable (w : Workspace) (launch : Tasks) (a : Artifacts) {i : Instance}

/-- A daemon on its way to release the endpoint stops listening, or takes the endpoint away. -/
theorem step_of_willRelease (h : i.stage.willRelease = true) :
    let next := i.step w launch a
    (next.2.stage.willRelease = true ∧ (next.1.endpoint = a.endpoint ∨ next.1.endpoint = a.endpoint.close i.pid)) ∨
      (next.2.stage.hasReleased = true ∧ next.1.endpoint = a.endpoint.unlink) := by
  obtain ⟨pid, stage, tasks, isListening⟩ := i
  cases stage with
  | endTasks ending =>
    cases ending with
    | refused failure => cases h
    | stopped failure =>
      refine .inl ⟨rfl, ?_⟩
      cases isListening
      · exact .inl rfl
      · exact .inr rfl
  | releaseEndpoint ending => exact .inr ⟨rfl, rfl⟩
  | _ => cases h

/-- A daemon that has released its endpoint leaves alone what is there. -/
theorem step_of_hasReleased (h : i.stage.hasReleased = true) :
    (i.step w launch a).2.stage.hasReleased = true ∧ (i.step w launch a).1.endpoint = a.endpoint := by
  obtain ⟨pid, stage, tasks, isListening⟩ := i
  cases stage with
  | readMarker ending =>
    refine ⟨?_, rfl⟩
    simp only [step, moveTo]
    split <;> rfl
  | releaseMarker | ended => exact ⟨rfl, rfl⟩
  | _ => cases h

theorem isLeaving_step (h : i.stage.isLeaving = true) : (i.step w launch a).2.stage.isLeaving = true := by
  rcases (Bool.or_eq_true _ _).mp h with hwill | hreleased
  · rcases step_of_willRelease w launch a hwill with ⟨hwill', -⟩ | ⟨hreleased', -⟩
    · rw [Stage.isLeaving, hwill', Bool.true_or]
    · rw [Stage.isLeaving, hreleased', Bool.or_true]
  · rw [Stage.isLeaving, (step_of_hasReleased w launch a hreleased).1, Bool.or_true]

/-- A daemon that is leaving takes the marker away or leaves it alone. -/
theorem marker_step_of_isLeaving (h : i.stage.isLeaving = true) :
    (i.step w launch a).1.marker = a.marker ∨ (i.step w launch a).1.marker = a.marker.unlink := by
  cases hmarks : i.stage.marks with
  | false => exact .inl (marker_step w launch a hmarks)
  | true =>
    cases hs : i.stage with
    | releaseMarker ending => exact .inr (by rw [step_releaseMarker w launch a hs])
    | clearMarker | openMarker | writeMarker => rw [hs] at h; cases h
    | _ => rw [hs] at hmarks; cases hmarks

/-- A daemon that has still to look at the marker comes to look, or looks. -/
theorem step_of_willRead (h : i.stage.willRead = true) :
    (i.step w launch a).2.stage.willRead = true ∨
      ∃ ending, (i.step w launch a).2.stage = if a.isForeign i.pid then .ended ending else .releaseMarker ending := by
  obtain ⟨pid, stage, tasks, isListening⟩ := i
  cases stage with
  | endTasks ending =>
    cases ending with
    | refused => cases h
    | stopped => exact .inl rfl
  | releaseEndpoint => exact .inl rfl
  | readMarker ending => exact .inr ⟨ending, rfl⟩
  | _ => cases h

end Instance

namespace Pair

variable {w : Workspace} {launch : Side → Tasks}

/-! ## The endpoint -/

/-- The new daemon has its socket at the endpoint, which the old one has released. -/
structure IsClear (p : Pair) : Prop where
  holding : p.IsHolding .right
  released : p.left.stage.hasReleased = true

/-- The new daemon has bound the endpoint, which the old one takes away. -/
structure IsDoomed (p : Pair) : Prop where
  past : p.right.stage.rank < Stage.bind.rank
  starting : p.right.stage.willRelease = false
  pids : p.left.pid ≠ p.right.pid
  endpoint : (p.left.stage.willRelease = true ∧ p.IsHolding .right) ∨
    (p.left.stage.hasReleased = true ∧ p.artifacts.endpoint = .vacant)

theorem IsClear.step {p : Pair} (h : p.IsClear) (s : Side) : (p.step w launch s).IsClear := by
  cases s with
  | left =>
    obtain ⟨hreleased, hendpoint⟩ := Instance.step_of_hasReleased w (launch .left) p.artifacts h.released
    exact ⟨⟨h.holding.bound, hendpoint.trans h.holding.endpoint⟩, hreleased⟩
  | right => exact ⟨h.holding.step_self, h.released⟩

theorem IsDoomed.step {p : Pair} (h : p.IsDoomed) (s : Side) : (p.step w launch s).IsDoomed := by
  obtain ⟨hpast, hstarting, hpids, hendpoint⟩ := h
  have hpids' : (p.step w launch s).left.pid ≠ (p.step w launch s).right.pid := by
    have hleft : (p.step w launch s).left.pid = p.left.pid := pid_step p .left s
    have hright : (p.step w launch s).right.pid = p.right.pid := pid_step p .right s
    rwa [hleft, hright]
  cases s with
  | left =>
    refine ⟨hpast, hstarting, hpids', ?_⟩
    rcases hendpoint with ⟨hwill, hholding⟩ | ⟨hreleased, hvacant⟩
    · rcases Instance.step_of_willRelease w (launch .left) p.artifacts hwill with
        ⟨hwill', hkeep⟩ | ⟨hreleased', hunlink⟩
      · refine .inl ⟨hwill', hholding.bound, ?_⟩
        rcases hkeep with hkeep | hkeep
        · exact hkeep.trans hholding.endpoint
        · refine hkeep.trans ?_
          rw [hholding.endpoint]
          exact Instance.close_ownSocket hpids.symm
      · refine .inr ⟨hreleased', hunlink.trans ?_⟩
        rw [hholding.endpoint, Instance.ownSocket]
        split <;> rfl
    · obtain ⟨hreleased', hkeep⟩ := Instance.step_of_hasReleased w (launch .left) p.artifacts hreleased
      exact .inr ⟨hreleased', hkeep.trans hvacant⟩
  | right =>
    refine ⟨Nat.lt_of_le_of_lt (Instance.rank_step_le ..) hpast, Instance.willRelease_step _ _ _ hstarting, hpids',
      hendpoint.imp (fun h => ⟨h.1, h.2.step_self⟩) fun h => ⟨h.1, ?_⟩⟩
    -- past its own claim of the endpoint, the new daemon puts nothing there
    rcases Instance.endpoint_step w (launch .right) p.artifacts hstarting with
      hkeep | hclose | ⟨-, hlisten⟩ | ⟨hat, -⟩ | ⟨hat, -⟩
    · exact hkeep.trans h.2
    · exact hclose.trans (by rw [h.2]; rfl)
    · exact hlisten.trans (by rw [h.2]; rfl)
    · rw [hat] at hpast; exact absurd hpast (by decide)
    · rw [hat] at hpast; exact absurd hpast (by decide)

/-- What becomes of the endpoint is settled when it is bound: it leads to the new daemon in the end iff the
old one has released it by then. -/
theorem endpoint_of_bind {q : Pair} (hpids : q.left.pid ≠ q.right.pid) (hleaving : q.left.stage.isLeaving = true)
    (hbind : q.right.stage = .bind) {turns : List Side}
    (hserve : (q.run w launch (.right :: turns)).right.stage = .serve)
    (hover : (q.run w launch (.right :: turns)).left.stage.isOver = true) :
    (q.run w launch (.right :: turns)).artifacts.answering? = some q.right.pid ↔
      q.left.stage.hasReleased = true := by
  have hup : (q.step w launch .right).right.stage.isDown = false :=
    isDown_of_isDown_side_run (s := .right) turns (show (q.run w launch (.right :: turns)).right.stage.isDown = false by
      rw [hserve]; rfl)
  have hholding : (q.step w launch .right).IsHolding .right := isHolding_of_bind hbind hup
  obtain ⟨haddress, -, -, hstage⟩ := Instance.of_bind w (launch .right) q.artifacts hbind hup
  have haddress' : (q.run w launch (.right :: turns)).artifacts.address = .ok () := by rw [address_run, haddress]
  rcases (Bool.or_eq_true _ _).mp hleaving with hwill | hreleased
  · have hnext : (q.step w launch .right).right.stage = .listen := hstage
    have hpids' : (q.step w launch .right).left.pid ≠ (q.step w launch .right).right.pid := by
      rw [show (q.step w launch .right).right.pid = q.right.pid from Instance.pid_step ..]
      exact hpids
    have hbegin : (q.step w launch .right).IsDoomed :=
      ⟨by rw [hnext]; decide, by rw [hnext]; rfl, hpids', .inl ⟨hwill, hholding⟩⟩
    have hdoomed : (q.run w launch (.right :: turns)).IsDoomed := run_preserves (fun _ s h => h.step s) hbegin turns
    have hnot : q.left.stage.hasReleased = false := by
      cases hs : q.left.stage with
      | readMarker | releaseMarker | ended => rw [hs] at hwill; cases hwill
      | _ => rfl
    rcases hdoomed.endpoint with ⟨hwill', -⟩ | ⟨-, hvacant⟩
    · cases hs : (q.run w launch (.right :: turns)).left.stage with
      | endTasks | releaseEndpoint => rw [hs] at hover; cases hover
      | _ => rw [hs] at hwill'; cases hwill'
    · rw [Artifacts.answering?, haddress', hvacant, hnot]
      exact iff_of_false (Option.some_ne_none _).symm Bool.false_ne_true
  · have hclear : (q.run w launch (.right :: turns)).IsClear :=
      run_preserves (fun _ s h => h.step s) (⟨hholding, hreleased⟩ : (q.step w launch .right).IsClear) turns
    have hown : (q.run w launch (.right :: turns)).artifacts.endpoint = .socket (some q.right.pid) Disk.dirMode := by
      rw [hclear.holding.endpoint, Instance.ownSocket, side, hserve, if_neg Stage.noConfusion, (pid_run q _).2]
    rw [Artifacts.answering?, haddress', hown, hreleased]
    exact iff_of_true rfl rfl

end Pair

/-! ## The marker -/

/-- What a daemon opens as its marker where it can be taken away: a file that may be read, or nothing. -/
def Slot.IsPlain (s : Slot) : Prop := s = .vacant ∨ ∃ content writers, s = .file content Disk.fileMode writers

namespace Slot

variable {s t : Slot} {pid : Nat} {content : Bytes}

theorem IsPlain.unlink (h : s.IsPlain) : s.unlink.IsPlain := by
  rcases h with rfl | ⟨old, writers, rfl⟩
  · exact .inl rfl
  · exact .inl rfl

theorem IsPlain.write (h : s.IsPlain) : (s.write pid content).IsPlain := by
  rcases h with rfl | ⟨old, writers, rfl⟩
  · exact .inl rfl
  · rw [Slot.write]
    split <;> exact .inr ⟨_, _, rfl⟩

theorem IsPlain.content? (h : s.IsPlain) : s.content? = s.stored? := by
  rcases h with rfl | ⟨old, writers, rfl⟩
  · rfl
  · rw [Slot.content?, if_pos (by decide), stored?]

/-- Where all that can be taken away has been, only a new file can be opened. -/
theorem isPlain_of_create (hcleared : s.unlink = s) (hfixed : s.isFixed = false) (h : s.create pid = .ok t) :
    t.IsPlain := by
  cases s with
  | vacant => cases h; exact .inr ⟨_, _, rfl⟩
  | fixed => cases hfixed
  | dir | blocked => cases h
  | file | bound | socket | link => cases hcleared

end Slot

theorem Artifacts.isForeign_of_content? {a : Artifacts} {pid other : Nat} (hne : other ≠ pid)
    (hmax : (other : Int) ≤ Marker.maxPid) (h : a.marker.content? = some (Marker.contentOf other)) :
    a.isForeign pid = true := by
  rw [isForeign, h, Option.bind_some, Marker.pid?_contentOf hmax]
  exact bne_iff_ne.mpr fun he => hne (Int.ofNat.inj he)

/-- An empty marker names nobody, whether it may be read or not. -/
theorem Artifacts.not_isForeign_of_stored? {a : Artifacts} {pid : Nat} (h : a.marker.stored? = some []) :
    a.isForeign pid = false := by
  have hread : a.marker.content?.bind Marker.pid? = none := by
    refine Option.bind_eq_none_iff.mpr fun content hcontent => ?_
    rw [Option.some.inj ((Slot.stored?_of_content? hcontent).symm.trans h)]
    decide
  rw [isForeign, hread]

namespace Pair

section Marker

variable (w : Workspace) (launch : Side → Tasks) (p : Pair) (turns : List Side)

/-- The old daemon takes away the marker that the new one has opened. -/
def IsTaken : Prop := ∃ ending, p.Meets w launch .left turns (.releaseMarker ending) Stage.hasOpened

/-- What becomes of the marker that the new daemon has opened: the old one takes it away, or was over before, or looks
at it after it has been written; or this is still to come. -/
inductive Handling : Prop
  | taken (h : p.IsTaken w launch turns)
  | early (h : p.Meets w launch .right turns .openMarker Stage.isOver)
  | late (h : p.Meets w launch .right turns .writeMarker Stage.willRead)
  | releasing {ending : Ending} (h : (p.run w launch turns).left.stage = .releaseMarker ending)
  | reading (hright : (p.run w launch turns).right.stage = .writeMarker)
      (hleft : (p.run w launch turns).left.stage.willRead = true)

end Marker

variable {w : Workspace} {launch : Side → Tasks} {p : Pair} {turns : List Side}

/-- The old daemon is leaving, and the new one clears the marker before it opens it. -/
structure IsTidied (p : Pair) : Prop where
  leaving : p.left.stage.isLeaving = true
  cleared : p.right.stage = .openMarker → p.artifacts.marker.unlink = p.artifacts.marker
  opened : p.artifacts.marker.isFixed = false → p.right.stage.hasOpened = true → p.artifacts.marker.IsPlain

theorem IsTidied.step (h : p.IsTidied) (s : Side) : (p.step w launch s).IsTidied := by
  cases s with
  | left =>
    have hfixed := Instance.isFixed_marker_step w (launch .left) p.artifacts p.left
    refine ⟨Instance.isLeaving_step _ _ _ h.leaving, fun hat => ?_, fun hfree hopened => ?_⟩ <;>
      rcases Instance.marker_step_of_isLeaving w (launch .left) p.artifacts h.leaving with hkeep | hunlink
    · simpa only [Pair.step, hkeep] using h.cleared hat
    · simp only [Pair.step, hunlink, Slot.unlink_unlink]
    · have hplain := h.opened (hfixed.symm.trans hfree) hopened
      simpa only [Pair.step, hkeep] using hplain
    · have hplain := h.opened (hfixed.symm.trans hfree) hopened
      simpa only [Pair.step, hunlink] using hplain.unlink
  | right =>
    have hfixed := Instance.isFixed_marker_step w (launch .right) p.artifacts p.right
    refine ⟨h.leaving, fun hat => ?_, fun hfree hopened => ?_⟩
    · have hbefore := Instance.eq_of_step w (launch .right) p.artifacts
        (show Stage.clearMarker.isGate = true from rfl) rfl rfl rfl hat
      simp only [Pair.step, Instance.step_clearMarker _ _ _ hbefore, Slot.unlink_unlink]
    · have hfree' : p.artifacts.marker.isFixed = false := hfixed.symm.trans hfree
      rcases Instance.eq_or_isPast w (launch .right) p.artifacts
        (show Stage.openMarker.isGate = true from rfl) hopened with hat | hbefore
      · rcases Instance.step_openMarker w (launch .right) p.artifacts hat with ⟨t, ht, hstep⟩ | ⟨fault, -, hstep⟩
        · simp only [Pair.step, hstep]
          exact Slot.isPlain_of_create (h.cleared hat) hfree' ht
        · simp only [Pair.step, hstep] at hopened
          cases hopened
      · have hplain := h.opened hfree' hbefore
        rcases Stage.eq_or_hasMarked hbefore with hat | hmarked
        · simp only [Pair.step, Instance.step_writeMarker _ _ _ hat]
          exact hplain.write
        · rwa [show (p.step w launch .right).artifacts.marker = p.artifacts.marker from
            Instance.marker_step _ _ _ (Stage.marks_of_hasMarked hmarked)]

/-- A daemon that is leaving, and a new one that begins. -/
structure IsSuccession (p : Pair) : Prop where
  leaving : p.left.stage.isLeaving = true
  beginning : p.right.stage = .prepare
  pids : p.left.pid ≠ p.right.pid

namespace IsSuccession

theorem isTidied_run (h : p.IsSuccession) (turns : List Side) : (p.run w launch turns).IsTidied := by
  refine run_preserves (fun _ s h => h.step s) ⟨h.leaving, ?_, fun _ hopened => ?_⟩ turns
  · rw [h.beginning]
    exact Stage.noConfusion
  · rw [h.beginning] at hopened
    cases hopened

theorem not_hasCleared (h : p.IsSuccession) : p.right.stage.hasCleared = false := by rw [h.beginning]; rfl

theorem left_ne_writeMarker (h : p.IsSuccession) : p.left.stage ≠ .writeMarker := fun hat => by
  have hleaving := h.leaving
  rw [hat] at hleaving
  cases hleaving

theorem ledger (h : p.IsSuccession) (turns : List Side) : Ledger (p.history w launch .right turns)
    (p.run w launch turns).artifacts.marker (p.run w launch turns).right (p.run w launch turns).left :=
  ledger_run (s := .right) h.pids h.not_hasCleared h.left_ne_writeMarker turns

/-- A daemon that is leaving does not come to claim anything. -/
theorem not_meets (h : p.IsSuccession) {stage : Stage} {kind : Stage → Bool} (hstage : stage.isLeaving = false) :
    ¬p.Meets w launch .left turns stage kind := by
  rintro ⟨before, after, -, hat, -⟩
  have hleaving : ((p.run w launch before).side .left).stage.isLeaving = true := (h.isTidied_run before).leaving
  rw [hat, hstage] at hleaving
  cases hleaving

theorem isLost_iff (h : p.IsSuccession) :
    p.IsLost w launch .right turns ↔ p.artifacts.marker.isFixed = false ∧ p.IsTaken w launch turns := by
  constructor
  · rintro (hmeets | ⟨hfree, hmeets | htaken⟩)
    · exact absurd hmeets (h.not_meets rfl)
    · exact absurd hmeets (h.not_meets rfl)
    · exact ⟨hfree, htaken⟩
  · exact fun hlost => .inr ⟨hlost.1, .inr hlost.2⟩

theorem not_isPreceded (h : p.IsSuccession) : ¬p.IsPreceded w launch .right turns := fun hp => h.not_meets rfl hp.2

theorem not_isFollowed (h : p.IsSuccession) : ¬p.IsFollowed w launch .right turns := fun hf => h.not_meets rfl hf.2

/-- **How the marker is handled**, turn by turn. -/
theorem handling_concat (h : p.IsSuccession) (t : Side)
    (ih : (p.run w launch turns).right.stage.hasOpened = true → p.Handling w launch turns)
    (hopened : (p.run w launch (turns ++ [t])).right.stage.hasOpened = true) : p.Handling w launch (turns ++ [t]) := by
  have hrun := @run_concat w launch p turns t
  have hlater {s : Side} {stage : Stage} {kind : Stage → Bool} (hmeets : p.Meets w launch s turns stage kind) :
      p.Meets w launch s (turns ++ [t]) stage kind := (meets_concat t).mpr (.inl hmeets)
  rw [hrun] at hopened
  cases t with
  | left =>
    cases ih hopened with
    | taken htaken => exact .taken (htaken.imp fun _ => hlater)
    | early hmeets => exact .early (hlater hmeets)
    | late hmeets => exact .late (hlater hmeets)
    | releasing hat => exact .taken ⟨_, (meets_concat .left).mpr (.inr ⟨rfl, hat, hopened⟩)⟩
    | reading hright hleft =>
      rcases Instance.step_of_willRead w (launch .left) (p.run w launch turns).artifacts hleft with hnext | ⟨e, hnext⟩
      · exact .reading (by rw [hrun]; exact hright) (by rw [hrun]; exact hnext)
      · by_cases htaken : p.IsTaken w launch turns
        · exact .taken (htaken.imp fun _ => hlater)
        · -- what the old daemon reads before the new one has written is empty
          have hstored := ((h.ledger turns).opened hright fun hl => htaken (h.isLost_iff.mp hl).2).2.2 h.not_isPreceded
          rw [Artifacts.not_isForeign_of_stored? hstored, if_neg Bool.false_ne_true] at hnext
          exact .releasing (by rw [hrun]; exact hnext)
  | right =>
    rcases Instance.eq_or_isPast w (launch .right) (p.run w launch turns).artifacts
      (show Stage.openMarker.isGate = true from rfl) hopened with hat | hbefore
    · rcases Stage.cases_of_isLeaving (h.isTidied_run turns).leaving with hread | ⟨ending, hrelease⟩ | hover
      · refine .reading ?_ (by rw [hrun]; exact hread)
        rw [hrun]
        rcases Instance.step_openMarker w (launch .right) (p.run w launch turns).artifacts hat with
          ⟨m, -, hstep⟩ | ⟨fault, -, hstep⟩
        · simp only [Pair.step, hstep, Instance.moveTo]
        · simp only [Pair.step, hstep] at hopened
          cases hopened
      · exact .releasing (by rw [hrun]; exact hrelease)
      · exact .early ((meets_concat .right).mpr (.inr ⟨rfl, hat, hover⟩))
    · cases ih hbefore with
      | taken htaken => exact .taken (htaken.imp fun _ => hlater)
      | early hmeets => exact .early (hlater hmeets)
      | late hmeets => exact .late (hlater hmeets)
      | releasing hat => exact .releasing (by rw [hrun]; exact hat)
      | reading hright hleft => exact .late ((meets_concat .right).mpr (.inr ⟨rfl, hright, hleft⟩))

theorem handling_run (h : p.IsSuccession) (turns : List Side)
    (hopened : (p.run w launch turns).right.stage.hasOpened = true) : p.Handling w launch turns := by
  induction turns using List.reverseRecOn with
  | nil =>
    have hbegin : p.right.stage.hasOpened = true := hopened
    rw [h.beginning] at hbegin
    cases hbegin
  | append_singleton turns t ih => exact h.handling_concat t ih hopened

/-- A marker that the old daemon looks at after it has been written names the new one, and stays. -/
theorem not_isTaken_of_late (h : p.IsSuccession) (hmax : (p.right.pid : Int) ≤ Marker.maxPid)
    (hfree : p.artifacts.marker.isFixed = false) (hup : (p.run w launch turns).right.stage.isDown = false)
    (hlate : p.Meets w launch .right turns .writeMarker Stage.willRead) :
    ¬p.IsTaken w launch turns ∧ ∀ ending, (p.run w launch turns).left.stage ≠ .releaseMarker ending := by
  induction turns using List.reverseRecOn with
  | nil => exact absurd hlate not_meets_nil
  | append_singleton turns t ih =>
    rw [run_concat] at hup ⊢
    have hup' : (p.run w launch turns).right.stage.isDown = false :=
      isDown_of_isDown_side_run (s := .right) [t] hup
    rcases (meets_concat t).mp hlate with hbefore | ⟨rfl, -, hread⟩
    · obtain ⟨hnot, hne⟩ := ih hup' hbefore
      cases t with
      | right => exact ⟨fun ⟨e, hmeets⟩ => hnot ⟨e, meets_other_concat.mp hmeets⟩, hne⟩
      | left =>
        refine ⟨fun ⟨e, hmeets⟩ => ?_, fun e hnext => ?_⟩
        · rcases (meets_concat .left).mp hmeets with hmeets | ⟨-, hat, -⟩
          · exact hnot ⟨e, hmeets⟩
          · exact hne e hat
        · have hmarked : (p.run w launch turns).right.stage.hasMarked = true :=
            Stage.isPast_iff.mpr ⟨hup', hbefore.rank_self rfl⟩
          have htidied : (p.run w launch turns).IsTidied := h.isTidied_run turns
          have hnext' : ((p.run w launch turns).left.step w (launch .left) (p.run w launch turns).artifacts).2.stage =
            .releaseMarker e := hnext
          rcases Stage.cases_of_isLeaving htidied.leaving with hread | ⟨e', hat⟩ | hover
          · rcases Instance.step_of_willRead w (launch .left) (p.run w launch turns).artifacts hread with
              hread' | ⟨e', hlook⟩
            · rw [hnext'] at hread'
              cases hread'
            · have hplain := htidied.opened (by rw [isFixed_run, hfree]) (Stage.hasOpened_of_hasMarked hmarked)
              have hstored := ((h.ledger turns).marked hmarked fun hl => hnot (h.isLost_iff.mp hl).2).2.2
                h.not_isPreceded h.not_isFollowed
              rw [← hplain.content?, (pid_run p turns).2] at hstored
              have hforeign := Artifacts.isForeign_of_content? h.pids.symm hmax hstored
              rw [(pid_run p turns).1, hforeign, if_pos rfl, hnext'] at hlook
              cases hlook
          · exact hne e' hat
          · rw [Instance.step_of_isOver _ _ _ hover] at hnext'
            exact hne e hnext'
    · have hrank {e : Ending} : (Stage.releaseMarker e).rank < _ := Stage.rank_of_willRead hread
      refine ⟨fun ⟨e, hmeets⟩ => ?_, fun e hat => ?_⟩
      · exact absurd ((meets_other_concat.mp hmeets).rank_self rfl) (Nat.not_lt.mpr (Nat.le_of_lt hrank))
      · have hread' : (p.run w launch turns).left.stage.willRead = true := hread
        rw [show (p.run w launch turns).left.stage = .releaseMarker e from hat] at hread'
        cases hread'

/-- **Whom the marker names** once the new daemon serves and the old one is over. -/
theorem names_iff (h : p.IsSuccession) (hmax : (p.right.pid : Int) ≤ Marker.maxPid)
    (hserve : (p.run w launch turns).right.stage = .serve)
    (hover : (p.run w launch turns).left.stage.isOver = true) :
    (p.run w launch turns).artifacts.marker.stored?.bind Marker.pid? = some (p.right.pid : Int) ↔
      p.artifacts.marker.isFixed = true ∨ p.Meets w launch .right turns .openMarker Stage.isOver ∨
        p.Meets w launch .right turns .writeMarker Stage.willRead := by
  have hmarked : (p.run w launch turns).right.stage.hasMarked = true := by rw [hserve]; rfl
  have hnames (hnot : ¬p.IsLost w launch .right turns) :=
    names_of_not_isLost (s := .right) h.pids hmax h.not_hasCleared h.left_ne_writeMarker hmarked hnot
      h.not_isPreceded h.not_isFollowed
  cases hfixed : p.artifacts.marker.isFixed with
  | true =>
    refine iff_of_true (hnames fun hl => ?_) (.inl rfl)
    rw [h.isLost_iff, hfixed] at hl
    exact Bool.noConfusion hl.1
  | false =>
    constructor
    · intro hnamed
      have hnot : ¬p.IsTaken w launch turns := fun htaken =>
        IsLost.not_names (s := .right) h.pids h.not_hasCleared h.left_ne_writeMarker hmarked
          (h.isLost_iff.mpr ⟨hfixed, htaken⟩) hnamed
      cases h.handling_run turns (Stage.hasOpened_of_hasMarked hmarked) with
      | taken htaken => exact absurd htaken hnot
      | early hmeets => exact .inr (.inl hmeets)
      | late hmeets => exact .inr (.inr hmeets)
      | releasing hat => rw [hat] at hover; cases hover
      | reading hright => rw [hserve] at hright; cases hright
    · intro hcases
      refine hnames fun hl => ?_
      obtain ⟨ending, hmeets⟩ := (h.isLost_iff.mp hl).2
      rcases hcases with hne | hearly | hlate
      · cases hne
      · exact hearly.not_meets_other (fun _ => Stage.rank_of_isOver) (fun _ => Stage.rank_of_hasOpened) hmeets
      · exact (h.not_isTaken_of_late hmax hfixed (by rw [hserve]; rfl) hlate).1 ⟨ending, hmeets⟩

end IsSuccession

/-! ## Both -/

/-- A daemon that has served, and whose tasks have ended, goes on to end, and a new one begins. -/
def succession (a : Artifacts) (served : Instance) (new : Nat) : Pair := ⟨a, served.wait, { pid := new }⟩

/-- **Exactly when the claims of a new daemon outlive the old one**: the endpoint leads to the new daemon
iff the old one had released it when it was bound, and the marker names the new daemon iff the old one was over when
it was opened, or had still to look at it when it was written, or it cannot be taken away at all. -/
theorem endures_iff {a : Artifacts} {served : Instance} (hstage : served.stage = .serve) {tasks : Tasks}
    (htasks : served.tasks = some tasks) (hended : tasks.isOver = true) {new : Nat} (hother : served.pid ≠ new)
    (hpid : (new : Int) ≤ Marker.maxPid) {turns : List Side}
    (hserve : ((succession a served new).run w launch turns).right.stage = .serve)
    (hover : ((succession a served new).run w launch turns).left.stage.isOver = true) :
    let p := succession a served new
    let last := p.run w launch turns
    (last.artifacts.answering? = some new ↔ p.Meets w launch .right turns .bind Stage.hasReleased) ∧
      (last.artifacts.marker.stored?.bind Marker.pid? = some (new : Int) ↔
        a.marker.isFixed = true ∨ p.Meets w launch .right turns .openMarker Stage.isOver ∨
          p.Meets w launch .right turns .writeMarker Stage.willRead) := by
  intro p last
  have hwait : p.left = served.moveTo (.endTasks (.stopped (firstFailure? tasks.ends))) := by
    simp only [p, succession, Instance.wait, hstage, htasks, hended, if_pos]
  have hp : p.IsSuccession := ⟨by rw [hwait]; rfl, rfl, by rw [hwait]; exact hother⟩
  refine ⟨?_, hp.names_iff hpid hserve hover⟩
  have hsettled : ∀ before after, turns = before ++ .right :: after → (p.run w launch before).right.stage = .bind →
      (last.artifacts.answering? = some new ↔ (p.run w launch before).left.stage.hasReleased = true) := by
    rintro before after rfl hat
    have hpids : (p.run w launch before).left.pid ≠ (p.run w launch before).right.pid := by
      rw [(pid_run p before).1, (pid_run p before).2]
      exact hp.pids
    rw [run_append] at hserve hover
    have hendpoint := endpoint_of_bind hpids (hp.isTidied_run before).leaving hat hserve hover
    rwa [(pid_run p before).2, ← run_append] at hendpoint
  constructor
  · intro hanswer
    obtain ⟨before, after, hturns, hat⟩ :=
      exists_turn (s := .right) (show Stage.bind.isGate = true from rfl) (p := p) rfl
        (show Stage.isPast .bind last.right.stage = true by rw [hserve]; rfl)
    exact ⟨before, after, hturns, hat, (hsettled before after hturns hat).mp hanswer⟩
  · rintro ⟨before, after, hturns, hat, hreleased⟩
    exact (hsettled before after hturns hat).mpr hreleased

/-- A new daemon whose claims endure: it comes between the old one's release of the endpoint and its look
at the marker. -/
theorem endures_of_handover :
    let w : Workspace := ⟨.ofString "/w", .ofString "/tmp"⟩
    let launch : Side → Tasks := fun _ => { scene := .begin false 0 }
    let a : Artifacts :=
      { endpoint := .socket (some 1) Endpoint.ownerOnly, marker := .file (Marker.contentOf 1) Disk.fileMode [] }
    let tasks : Tasks := { scene := .begin false 0, supervisor := .ended .finished }
    let served : Instance := { pid := 1, stage := .serve, tasks := some tasks, isListening := true }
    let turns : List Side := [.left, .left] ++ List.replicate 5 .right ++ [.left] ++ List.replicate 4 .right
    (served.stage = .serve ∧ served.tasks = some tasks ∧ tasks.isOver = true ∧ served.pid ≠ 2 ∧
        ((2 : Nat) : Int) ≤ Marker.maxPid ∧
        ((succession a served 2).run w launch turns).right.stage = .serve ∧
        ((succession a served 2).run w launch turns).left.stage.isOver = true) ∧
      ((succession a served 2).run w launch turns).artifacts.answering? = some 2 ∧
      ((succession a served 2).run w launch turns).artifacts.marker.stored?.bind Marker.pid? =
        some ((2 : Nat) : Int) := by
  intro w launch a tasks served turns
  have hended : tasks.isOver = true := by decide
  have hother : served.pid ≠ 2 := by decide
  have hpid : ((2 : Nat) : Int) ≤ Marker.maxPid := by decide
  have hserve : ((succession a served 2).run w launch turns).right.stage = .serve := by decide +kernel
  have hover : ((succession a served 2).run w launch turns).left.stage.isOver = true := by
    decide +kernel
  have hbind : (succession a served 2).Meets w launch .right turns .bind Stage.hasReleased :=
    ⟨turns.take 9, turns.drop 10, rfl, by decide +kernel, by decide +kernel⟩
  have hwrite : (succession a served 2).Meets w launch .right turns .writeMarker Stage.willRead :=
    ⟨turns.take 6, turns.drop 7, rfl, by decide +kernel, by decide +kernel⟩
  obtain ⟨hendpoint, hmarker⟩ := endures_iff (w := w) (a := a) rfl rfl hended hother hpid hserve hover
  exact ⟨⟨rfl, rfl, hended, hother, hpid, hserve, hover⟩, hendpoint.mpr hbind, hmarker.mpr (.inr (.inr hwrite))⟩

/-- New daemons that lose what they have claimed. One binds its endpoint before the old daemon takes the
endpoint away, and nobody can reach it. Others write the marker after the old daemon has read its own name there, or
has found it empty, and the marker is gone. -/
theorem loses_claims :
    let w : Workspace := ⟨.ofString "/w", .ofString "/tmp"⟩
    let launch : Side → Tasks := fun _ => { scene := .begin false 0 }
    let a : Artifacts :=
      { endpoint := .socket (some 1) Endpoint.ownerOnly, marker := .file (Marker.contentOf 1) Disk.fileMode [] }
    let tasks : Tasks := { scene := .begin false 0, supervisor := .ended .finished }
    let p := succession a { pid := 1, stage := .serve, tasks := some tasks, isListening := true } 2
    let early := p.run w launch (.left :: List.replicate 11 .right ++ [.left, .left])
    let late := p.run w launch ([.left, .left, .left] ++ List.replicate 9 .right ++ [.left])
    let empty := p.run w launch ([.left, .left] ++ List.replicate 4 .right ++ [.left] ++ List.replicate 5 .right ++
      [.left])
    (early.right.stage = .serve ∧ early.left.stage.isOver = true ∧ early.artifacts.answering? = none ∧
        early.artifacts.marker.stored? = some (Marker.contentOf 2)) ∧
      (late.right.stage = .serve ∧ late.left.stage.isOver = true ∧
        late.artifacts.answering? = some 2 ∧ late.artifacts.marker.stored? = none) ∧
      empty.right.stage = .serve ∧ empty.left.stage.isOver = true ∧
        empty.artifacts.answering? = some 2 ∧ empty.artifacts.marker.stored? = none := by
  decide +kernel

end Pair

end WarmCheck.Daemon

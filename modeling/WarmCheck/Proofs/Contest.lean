import WarmCheck.Proofs.Marking

/-!
# Two daemons that start at once

Two daemons start in one workspace and take turns in any order. Neither holds a lock: each looks at the
endpoint, and acts on what it saw later. What one has bound stays its own unless the other takes it for stale, because
it has looked there before, or because the one does not listen yet; the other then takes the endpoint away and binds
it in turn.

* `Pair.contest`: the beginning; `Pair.IsContest`: what holds all along.
* `Pair.IsHolding`, `Pair.IsReplaced`: a daemon listens at the endpoint, or the other one takes its place.
* `Pair.IsOrderly`: nothing was at the endpoint, so nobody takes anything away.
* **`Pair.both_serve_iff`**: exactly when both daemons come to serve; `Pair.exists_meets_of_both_serve`: how they do
  where nothing was at the endpoint.
-/

namespace WarmCheck.Daemon

/-! ## Stages and slots -/

namespace Stage

/-- Whether the daemon has passed the check of the endpoint and has not bound it yet. -/
def isClaiming : Stage → Bool
  | clearMarker | openMarker | writeMarker | launch | bind => true
  | _ => false

/-- Whether the daemon has neither met anything at the endpoint nor bound it. -/
def isQuiet : Stage → Bool
  | connect | clearEndpoint | listen | protect | serve => false
  | _ => true

theorem hasMarked_of_hasBound {s : Stage} (h : s.hasBound = true) : s.hasMarked = true :=
  isPast_iff.mpr ⟨(isPast_iff.mp h).1, Nat.lt_trans (isPast_iff.mp h).2 (by decide)⟩

/-- A daemon that has bound its endpoint is to listen there, or to protect it, or serves. -/
theorem hasBound_cases {s : Stage} (h : s.hasBound = true) : s = listen ∨ s = protect ∨ s = serve := by
  obtain ⟨hup, hrank⟩ := isPast_iff.mp h
  cases s with
  | listen | protect | serve => simp
  | endTasks | releaseEndpoint | readMarker | releaseMarker | ended => cases hup
  | _ => exact absurd hrank (by decide)

theorem isDown_of_hasBound {s : Stage} (h : s.hasBound = true) : s.isDown = false := (isPast_iff.mp h).1

theorem rank_of_hasBound {s : Stage} (h : s.hasBound = true) : s.rank < bind.rank := (isPast_iff.mp h).2

theorem eq_serve_of_isRest {s : Stage} (hrest : s.isRest = true) (hbound : s.hasBound = true) : s = serve := by
  rcases hasBound_cases hbound with rfl | rfl | rfl
  · cases hrest
  · cases hrest
  · rfl

end Stage

namespace Slot

/-- Whether a socket is there, at which some process listens or not. -/
def isSocket : Slot → Bool
  | bound .. | socket .. => true
  | _ => false

theorem reaches_unlink {s : Slot} (h : s.reaches = false) : s.unlink.reaches = false := by
  cases s with
  | vacant | link | blocked => rfl
  | fixed => exact h
  | _ => cases h

theorem reaches_close (s : Slot) (pid : Nat) : (s.close pid).reaches = s.reaches := by
  induction s with
  | link target ih | fixed target ih => exact ih
  | _ => rfl

theorem unlink_close (s : Slot) (pid : Nat) (h : s.unlink = .vacant) : (s.close pid).unlink = .vacant := by
  cases s with
  | vacant | file | bound | socket | link => rfl
  | _ => cases h

theorem unlink_listen (s : Slot) (pid : Nat) (h : s.unlink = .vacant) : (s.listen pid).unlink = .vacant := by
  cases s with
  | bound owner mode => by_cases he : owner = pid <;> simp [listen, he, unlink]
  | vacant | file | socket | link => rfl
  | _ => cases h

theorem isSocket_listen {s : Slot} (pid : Nat) (h : s.isSocket = true) : (s.listen pid).isSocket = true := by
  cases s with
  | bound owner mode => by_cases he : owner = pid <;> simp [listen, he, isSocket]
  | socket => rfl
  | _ => cases h

theorem protect_of_isSocket {s : Slot} (h : s.isSocket = true) : s.protect = .ok () := by
  cases s with
  | bound | socket => rfl
  | _ => cases h

/-- Nobody listens at a place where nothing is. -/
theorem listen_of_not_reaches {s : Slot} (pid : Nat) (h : s.reaches = false) : s.listen pid = s := by
  cases s with
  | bound => cases h
  | _ => rfl

end Slot

/-! ## Steps -/

namespace Instance

variable (w : Workspace) (launch : Tasks) (a : Artifacts) {i : Instance}

/-- The socket that a daemon has put at its endpoint, at which it does not listen right away. -/
def ownSocket (i : Instance) : Slot :=
  if i.stage = .listen then .bound i.pid Disk.dirMode else .socket (some i.pid) Disk.dirMode

theorem isSocket_ownSocket (i : Instance) : i.ownSocket.isSocket = true := by
  unfold ownSocket
  split <;> rfl

/-- Nobody but its owner closes a socket. -/
theorem close_ownSocket {other : Instance} {pid : Nat} (h : other.pid ≠ pid) :
    other.ownSocket.close pid = other.ownSocket := by
  unfold ownSocket
  split
  · rfl
  · rw [Slot.close, if_neg fun he => h (Option.some.inj he)]

/-- A daemon that has not served does not come to release the endpoint. -/
theorem willRelease_step (h : i.stage.willRelease = false) : (i.step w launch a).2.stage.willRelease = false := by
  obtain ⟨pid, stage, tasks, isListening⟩ := i
  cases stage with
  | endTasks ending =>
    cases ending with
    | refused => rfl
    | stopped => cases h
  | releaseEndpoint => cases h
  | prepare | connect | openMarker | bind | protect =>
    simp only [step]
    split <;> rfl
  | probe | readMarker =>
    simp only [step, moveTo]
    split <;> rfl
  | _ => rfl

/-- What a step of a daemon that has not served can do to the endpoint. -/
theorem endpoint_step (h : i.stage.willRelease = false) :
    (i.step w launch a).1.endpoint = a.endpoint ∨
      (i.step w launch a).1.endpoint = a.endpoint.close i.pid ∨
      (i.stage = .listen ∧ (i.step w launch a).1.endpoint = a.endpoint.listen i.pid) ∨
      (i.stage = .clearEndpoint ∧ (i.step w launch a).1.endpoint = a.endpoint.unlink) ∨
      (i.stage = .bind ∧ (i.step w launch a).2.stage = .listen ∧ a.address = .ok () ∧ a.endpoint = .vacant ∧
        (i.step w launch a).1.endpoint = .bound i.pid Disk.dirMode) := by
  obtain ⟨pid, stage, tasks, isListening⟩ := i
  cases stage with
  | clearEndpoint => exact .inr (.inr (.inr (.inl ⟨rfl, rfl⟩)))
  | listen => exact .inr (.inr (.inl ⟨rfl, rfl⟩))
  | endTasks ending =>
    cases isListening with
    | false => exact .inl rfl
    | true => exact .inr (.inl rfl)
  | releaseEndpoint => cases h
  | prepare | connect | openMarker | protect =>
    simp only [step]
    split <;> exact .inl rfl
  | bind =>
    simp only [step]
    split
    · next b hb =>
      obtain ⟨haddress, hvacant, rfl⟩ := Artifacts.of_bind hb
      simp [haddress, hvacant, moveTo]
    · exact .inl rfl
  | _ => exact .inl rfl

/-- The socket of another daemon stays, unless it is taken for stale. -/
theorem endpoint_step_of_other (h : i.stage.willRelease = false) {other : Instance} (hother : other.pid ≠ i.pid)
    (hsocket : a.endpoint = other.ownSocket) (hne : i.stage ≠ .clearEndpoint) :
    (i.step w launch a).1.endpoint = other.ownSocket := by
  have hlisten : other.ownSocket.listen i.pid = other.ownSocket := by
    unfold ownSocket
    split
    · exact if_neg hother
    · rfl
  rcases endpoint_step w launch a h with hkeep | hkeep | ⟨-, hkeep⟩ | ⟨hat, -⟩ | ⟨-, -, -, hvacant, -⟩
  · rw [hkeep, hsocket]
  · rw [hkeep, hsocket, close_ownSocket hother]
  · rw [hkeep, hsocket, hlisten]
  · exact absurd hat hne
  · have hthere := isSocket_ownSocket other
    rw [← hsocket, hvacant] at hthere
    cases hthere

/-- A daemon that has bound the endpoint stays where a socket is, its own or not. -/
theorem step_of_isSocket (h : i.stage.hasBound = true) (hsocket : a.endpoint.isSocket = true) :
    (i.step w launch a).1.endpoint.isSocket = true ∧ (i.step w launch a).2.stage.hasBound = true := by
  obtain ⟨pid, stage, tasks, isListening⟩ := i
  rcases Stage.hasBound_cases h with rfl | rfl | rfl
  · exact ⟨Slot.isSocket_listen pid hsocket, rfl⟩
  · simp only [step, Slot.protect_of_isSocket hsocket]
    exact ⟨hsocket, rfl⟩
  · exact ⟨hsocket, rfl⟩

/-- A daemon whose socket is at the endpoint stays there. -/
theorem step_of_ownSocket (h : i.stage.hasBound = true) (hsocket : a.endpoint = i.ownSocket) :
    (i.step w launch a).1.endpoint = (i.step w launch a).2.ownSocket := by
  obtain ⟨pid, stage, tasks, isListening⟩ := i
  rcases Stage.hasBound_cases h with rfl | rfl | rfl
  · have hbound : a.endpoint = .bound pid Disk.dirMode := hsocket
    simp only [step, hbound]
    exact if_pos rfl
  · have hown : a.endpoint = .socket (some pid) Disk.dirMode := hsocket
    simp only [step, hown, Slot.protect]
    rfl
  · exact hsocket

/-- A daemon that has passed the check, with nothing in its way, comes to bind the endpoint. -/
theorem step_of_isClaiming (h : i.stage.isClaiming = true) (haddress : a.address = .ok ())
    (hopen : a.marker.IsOpen) (hvacant : a.endpoint = .vacant) :
    ((i.step w launch a).2.stage.isClaiming = true ∧ (i.step w launch a).1.endpoint = .vacant) ∨
      ((i.step w launch a).2.stage.hasBound = true ∧
        (i.step w launch a).1.endpoint = (i.step w launch a).2.ownSocket) := by
  obtain ⟨pid, stage, tasks, isListening⟩ := i
  cases stage with
  | clearMarker | writeMarker | launch => exact .inl ⟨rfl, hvacant⟩
  | openMarker =>
    obtain ⟨t, ht⟩ := hopen.exists_create pid
    refine .inl ?_
    simp only [step, ht]
    exact ⟨rfl, hvacant⟩
  | bind =>
    refine .inr ?_
    simp only [step, Artifacts.bind, haddress, hvacant, Slot.bind]
    exact ⟨rfl, rfl⟩
  | _ => cases h

/-- A step of a daemon that has met nobody. It goes on to meet somebody only when it finds something at the endpoint,
and to listen only when it can bind. -/
theorem isQuiet_step_cases (h : i.stage.isQuiet = true) :
    (i.step w launch a).2.stage.isQuiet = true ∨
      (a.endpoint.reaches = true ∧ (i.step w launch a).2.stage = .connect) ∨
      (∃ b, a.bind i.pid = .ok b) ∧ (i.step w launch a).2.stage = .listen := by
  obtain ⟨pid, stage, tasks, isListening⟩ := i
  cases stage with
  | clearMarker | writeMarker | launch | releaseEndpoint | releaseMarker | ended => exact .inl rfl
  | endTasks ending => cases ending <;> exact .inl rfl
  | probe =>
    simp only [step, moveTo]
    split
    · next hreaches => exact .inr (.inl ⟨hreaches, rfl⟩)
    · exact .inl rfl
  | prepare | openMarker =>
    simp only [step]
    split <;> exact .inl rfl
  | bind =>
    simp only [step]
    split
    · next b hb => exact .inr (.inr ⟨⟨b, hb⟩, rfl⟩)
    · exact .inl rfl
  | readMarker =>
    simp only [step, moveTo]
    split <;> exact .inl rfl
  | connect | clearEndpoint | listen | protect | serve => cases h

/-- Where nothing is at the endpoint, a daemon meets nothing there. -/
theorem isQuiet_step_of_not_reaches (h : i.stage.isQuiet = true) (hreaches : a.endpoint.reaches = false) :
    (i.step w launch a).2.stage.isQuiet = true ∨ (i.step w launch a).2.stage = .listen := by
  rcases isQuiet_step_cases w launch a h with hquiet | ⟨hthere, -⟩ | ⟨-, hlisten⟩
  · exact .inl hquiet
  · rw [hreaches] at hthere
    cases hthere
  · exact .inr hlisten

/-- Where a daemon has bound the endpoint, another one gives up at the latest when it binds, unless it connects before
the daemon listens. -/
theorem isQuiet_step_of_other (h : i.stage.isQuiet = true ∨ i.stage = .connect) (haddress : a.address = .ok ())
    {other : Instance} (hsocket : a.endpoint = other.ownSocket)
    (hlistens : i.stage = .connect → other.stage ≠ .listen) :
    (i.step w launch a).2.stage.isQuiet = true ∨ (i.step w launch a).2.stage = .connect := by
  rcases h with hquiet | hconnect
  · rcases isQuiet_step_cases w launch a hquiet with hnext | ⟨-, hmeets⟩ | ⟨⟨b, hb⟩, -⟩
    · exact .inl hnext
    · exact .inr hmeets
    · have hthere : a.endpoint.isSocket = true := by rw [hsocket]; exact isSocket_ownSocket other
      rw [(Artifacts.of_bind hb).2.1] at hthere
      cases hthere
  · have hanswer : a.answering? = some other.pid := by
      rw [Artifacts.answering?, haddress, hsocket, ownSocket, if_neg (hlistens hconnect)]
      rfl
    left
    simp only [step, hconnect, hanswer]
    rfl

end Instance

/-! ## What holds all along -/

namespace Pair

variable {w : Workspace} {launch : Side → Tasks}

/-- Two processes that start and do not end before they serve. Where one has opened its marker, a marker can be opened,
and where one has bound the endpoint, it can be taken away. -/
structure IsContest (p : Pair) : Prop where
  pids : ∀ s, (p.side s).pid ≠ (p.side s.other).pid
  starting : ∀ s, (p.side s).stage.willRelease = false
  isOpen : ∀ s, (p.side s).stage.hasOpened = true → p.artifacts.marker.IsOpen
  bound : ∀ s, (p.side s).stage.hasBound = true →
    p.artifacts.address = .ok () ∧ p.artifacts.endpoint.unlink = .vacant

theorem IsContest.step {p : Pair} (h : p.IsContest) (t : Side) : (p.step w launch t).IsContest := by
  refine ⟨fun s => by simpa only [pid_step] using h.pids s, ?_, ?_, ?_⟩ <;> rw [Side.forall_iff t] <;>
    simp only [side_step, other_step, artifacts_step]
  · exact ⟨Instance.willRelease_step w (launch t) p.artifacts (h.starting t), h.starting t.other⟩
  · refine ⟨fun hopened => ?_, fun hopened => ?_⟩
    · rcases Instance.eq_or_isPast w (launch t) p.artifacts rfl hopened with hat | hbefore
      · rcases Instance.step_openMarker w (launch t) p.artifacts hat with ⟨m, hm, hstep⟩ | ⟨fault, -, hstep⟩
        · rw [hstep]
          exact .inr (Slot.isWritable_of_create hm)
        · rw [hstep] at hopened
          cases hopened
      · exact Instance.isOpen_marker_step w (launch t) p.artifacts (h.isOpen t hbefore) _
    · exact Instance.isOpen_marker_step w (launch t) p.artifacts (h.isOpen t.other hopened) _
  · have haddress := Instance.address_step w (launch t) p.artifacts (p.side t)
    have hkeep : p.artifacts.endpoint.unlink = .vacant →
        ((p.side t).step w (launch t) p.artifacts).1.endpoint.unlink = .vacant := by
      intro hvacant
      rcases Instance.endpoint_step w (launch t) p.artifacts (h.starting t) with
        hkeep | hclose | ⟨-, hlisten⟩ | ⟨-, hunlink⟩ | ⟨-, -, -, -, hbound⟩
      · rwa [hkeep]
      · rw [hclose]
        exact Slot.unlink_close _ _ hvacant
      · rw [hlisten]
        exact Slot.unlink_listen _ _ hvacant
      · rwa [hunlink, Slot.unlink_unlink]
      · rw [hbound]; rfl
    refine ⟨fun hbound => ?_, fun hbound => ?_⟩
    · rcases Instance.eq_or_isPast w (launch t) p.artifacts rfl hbound with hat | hbefore
      · obtain ⟨hok, -, hnext, -⟩ :=
          Instance.of_bind w (launch t) p.artifacts hat (Stage.isDown_of_hasBound hbound)
        exact ⟨haddress.trans hok, by rw [hnext]; rfl⟩
      · exact ⟨haddress.trans (h.bound t hbefore).1, hkeep (h.bound t hbefore).2⟩
    · exact ⟨haddress.trans (h.bound t.other hbound).1, hkeep (h.bound t.other hbound).2⟩

theorem IsContest.run {p : Pair} (h : p.IsContest) (turns : List Side) : (p.run w launch turns).IsContest :=
  run_preserves (fun _ t h => h.step t) h turns

/-- A daemon has bound the endpoint, and its socket is there. -/
structure IsHolding (p : Pair) (s : Side) : Prop where
  bound : (p.side s).stage.hasBound = true
  endpoint : p.artifacts.endpoint = (p.side s).ownSocket

/-- The other daemon has taken away what a daemon had bound, and puts its own socket there. -/
structure IsReplaced (p : Pair) (s : Side) : Prop where
  past : (p.side s).stage.rank < Stage.bind.rank
  address : p.artifacts.address = .ok ()
  isOpen : p.artifacts.marker.IsOpen
  claim : ((p.side s.other).stage.isClaiming = true ∧ p.artifacts.endpoint = .vacant) ∨ p.IsHolding s.other

theorem IsHolding.isSocket {p : Pair} {s : Side} (h : p.IsHolding s) : p.artifacts.endpoint.isSocket = true := by
  rw [h.endpoint]
  exact Instance.isSocket_ownSocket _

theorem IsHolding.step_self {p : Pair} {s : Side} (h : p.IsHolding s) : (p.step w launch s).IsHolding s := by
  refine ⟨?_, ?_⟩
  · rw [side_step]
    exact (Instance.step_of_isSocket w (launch s) p.artifacts h.bound h.isSocket).2
  · rw [artifacts_step, side_step]
    exact Instance.step_of_ownSocket w (launch s) p.artifacts h.bound h.endpoint

theorem IsHolding.step_other {p : Pair} {s : Side} (hc : p.IsContest) (h : p.IsHolding s)
    (hne : (p.side s.other).stage ≠ .clearEndpoint) : (p.step w launch s.other).IsHolding s := by
  refine ⟨by rw [side_step_other]; exact h.bound, ?_⟩
  rw [artifacts_step, side_step_other]
  exact Instance.endpoint_step_of_other w (launch s.other) p.artifacts (hc.starting s.other) (hc.pids s)
    h.endpoint hne

theorem IsReplaced.step {p : Pair} {s : Side} (hc : p.IsContest) (h : p.IsReplaced s) (t : Side) :
    (p.step w launch t).IsReplaced s := by
  obtain ⟨hpast, haddress, hopen, hclaim⟩ := h
  have haddress' : (p.step w launch t).artifacts.address = .ok () := by
    rw [artifacts_step, Instance.address_step, haddress]
  have hopen' : (p.step w launch t).artifacts.marker.IsOpen := by
    rw [artifacts_step]
    exact Instance.isOpen_marker_step w (launch t) p.artifacts hopen _
  rcases s.eq_or_eq_other t with rfl | rfl
  · -- the daemon that has lost the endpoint may still close it, but neither clears nor binds it again
    refine ⟨?_, haddress', hopen', ?_⟩
    · rw [side_step]
      exact Nat.lt_of_le_of_lt (Instance.rank_step_le ..) hpast
    · have hne : ∀ stage : Stage, Stage.bind.rank ≤ stage.rank → (p.side t).stage ≠ stage := fun stage hle he =>
        absurd (he ▸ hpast) (Nat.not_lt.mpr hle)
      rcases hclaim with ⟨hclaiming, hvacant⟩ | hholding
      · refine .inl ⟨by rwa [other_step], ?_⟩
        rw [artifacts_step]
        rcases Instance.endpoint_step w (launch t) p.artifacts (hc.starting t) with
          hkeep | hclose | ⟨-, hlisten⟩ | ⟨hat, -⟩ | ⟨hat, -⟩
        · rwa [hkeep]
        · rw [hclose, hvacant]; rfl
        · rw [hlisten, hvacant]; rfl
        · exact absurd hat (hne _ (by decide))
        · exact absurd hat (hne _ (by decide))
      · have hstay : (p.step w launch t.other.other).IsHolding t.other :=
          hholding.step_other hc (by rw [Side.other_other]; exact hne _ (by decide))
        rw [Side.other_other] at hstay
        exact .inr hstay
  · -- nothing can fail on the way of the other one: the place is vacant and a marker can be opened
    refine ⟨by rwa [side_step_other], haddress', hopen', ?_⟩
    rcases hclaim with ⟨hclaiming, hvacant⟩ | hholding
    · rw [side_step, artifacts_step]
      refine (Instance.step_of_isClaiming w (launch s.other) p.artifacts hclaiming haddress hopen hvacant).imp_right ?_
      rintro ⟨hbound, hsocket⟩
      exact ⟨by rwa [side_step], by rwa [artifacts_step, side_step]⟩
    · exact .inr hholding.step_self

theorem IsHolding.replaced {p : Pair} {s : Side} (hc : p.IsContest) (hbound : (p.side s).stage.hasBound = true)
    (hat : (p.side s.other).stage = .clearEndpoint) : (p.step w launch s.other).IsReplaced s := by
  obtain ⟨haddress, hunlink⟩ := hc.bound s hbound
  have hopen := hc.isOpen s (Stage.hasOpened_of_hasMarked (Stage.hasMarked_of_hasBound hbound))
  refine ⟨?_, ?_, ?_, .inl ⟨?_, ?_⟩⟩
  · rw [side_step_other]
    exact Stage.rank_of_hasBound hbound
  · rw [artifacts_step, Instance.address_step, haddress]
  · rw [artifacts_step]
    exact Instance.isOpen_marker_step w (launch s.other) p.artifacts hopen _
  · rw [side_step, Instance.step.eq_def, hat]
    rfl
  · rw [artifacts_step, Instance.step.eq_def, hat]
    exact hunlink

end Pair

/-! ## Who serves -/

namespace Pair

section Contest

variable {w : Workspace} {launch : Side → Tasks} {p : Pair} {s : Side}

theorem IsReplaced.run (hc : p.IsContest) (h : p.IsReplaced s) (turns : List Side) :
    (p.run w launch turns).IsReplaced s :=
  run_of_turns (P := (IsReplaced · s)) (fun before t _ _ hq => hq.step (hc.run before) t) h

/-- A daemon that takes the place of another one comes to serve. -/
theorem IsReplaced.serve (h : p.IsReplaced s) (hrest : (p.side s.other).stage.isRest = true) :
    (p.side s.other).stage = .serve := by
  rcases h.claim with ⟨hclaiming, -⟩ | hholding
  · cases hs : (p.side s.other).stage with
    | serve => rfl
    | clearMarker | openMarker | writeMarker | launch | bind => rw [hs] at hrest; cases hrest
    | _ => rw [hs] at hclaiming; cases hclaiming
  · exact Stage.eq_serve_of_isRest hrest hholding.bound

theorem isHolding_of_bind (hat : (p.side s).stage = .bind)
    (hup : ((p.step w launch s).side s).stage.isDown = false) : (p.step w launch s).IsHolding s := by
  rw [side_step] at hup
  obtain ⟨-, -, hartifacts, hstage⟩ := Instance.of_bind w (launch s) p.artifacts hat hup
  refine ⟨by rw [side_step, hstage]; rfl, ?_⟩
  rw [artifacts_step, hartifacts, side_step, Instance.ownSocket, if_pos hstage, Instance.pid_step]

/-- A daemon that takes away what the other one has bound, while both come to serve, binds the endpoint
itself after the other one. -/
theorem Meets.bind (hc : p.IsContest) {turns : List Side}
    (hserve : ∀ s, ((p.run w launch turns).side s).stage = .serve)
    (h : p.Meets w launch s turns .clearEndpoint Stage.hasBound) :
    p.Meets w launch s turns .bind Stage.hasBound := by
  obtain ⟨first, rest, rfl, hat, hbound, hrun⟩ := h.exists_run
  set r := (p.run w launch first).step w launch s with hr
  have hreplaced : r.IsReplaced s.other := by
    have hat' : ((p.run w launch first).side s.other.other).stage = .clearEndpoint := by rwa [Side.other_other]
    have h : ((p.run w launch first).step w launch s.other.other).IsReplaced s.other :=
      IsHolding.replaced (hc.run first) hbound hat'
    rwa [Side.other_other] at h
  have hnot : (r.side s).stage.hasBound = false := by
    rw [hr, side_step, Instance.step.eq_def, hat]
    rfl
  obtain ⟨before, after, rfl, hbind⟩ :=
    exists_turn (show Stage.bind.isGate = true from rfl) hnot (by rw [← hrun, hserve s]; rfl)
  refine Meets.of_run ⟨before, after, rfl, by rwa [run_concat], ?_⟩
  rw [run_concat]
  refine Stage.isPast_iff.mpr ⟨?_, (hreplaced.run ((hc.run first).step s) before).past⟩
  have hup : (((r.run w launch before).run w launch (s :: after)).side s.other).stage.isDown = false := by
    rw [← run_append, ← hrun, hserve s.other]
    rfl
  exact isDown_of_isDown_side_run (s :: after) hup

/-- Both daemons have bound the endpoint, and a socket is there. -/
structure IsShared (p : Pair) : Prop where
  bound : ∀ s, (p.side s).stage.hasBound = true
  endpoint : p.artifacts.endpoint.isSocket = true

theorem IsShared.step (h : p.IsShared) (t : Side) : (p.step w launch t).IsShared := by
  obtain ⟨hsocket, hbound⟩ := Instance.step_of_isSocket w (launch t) p.artifacts (h.bound t) h.endpoint
  refine ⟨(Side.forall_iff t).mpr ⟨by rwa [side_step], ?_⟩, ?_⟩
  · rw [other_step]
    exact h.bound t.other
  · rwa [artifacts_step]

/-- Nothing is at the endpoint, and nobody has met anything there; or it is one daemon's, and the other one
has not bound it. -/
def IsOrderly (p : Pair) : Prop :=
  (p.artifacts.endpoint.reaches = false ∧ ∀ s, (p.side s).stage.isQuiet = true) ∨
    ∃ s, p.IsHolding s ∧ ((p.side s.other).stage.isQuiet = true ∨ (p.side s.other).stage = .connect)

/-- A turn in which nobody connects to the other one that does not listen yet. -/
theorem IsOrderly.step (hc : p.IsContest) (h : p.IsOrderly) (t : Side)
    (hnot : (p.side t).stage = .connect → (p.side t.other).stage ≠ .listen) : (p.step w launch t).IsOrderly := by
  rcases h with ⟨hreaches, hquiet⟩ | ⟨s, hholding, hother⟩
  · rcases Instance.isQuiet_step_of_not_reaches w (launch t) p.artifacts (hquiet t) hreaches with hnext | hnext
    · refine .inl ⟨?_, (Side.forall_iff t).mpr ⟨by rwa [side_step], by rw [other_step]; exact hquiet t.other⟩⟩
      rw [artifacts_step]
      rcases Instance.endpoint_step w (launch t) p.artifacts (hc.starting t) with
        hkeep | hclose | ⟨-, hlisten⟩ | ⟨-, hunlink⟩ | ⟨-, hlisten, -⟩
      · rwa [hkeep]
      · rwa [hclose, Slot.reaches_close]
      · rwa [hlisten, Slot.listen_of_not_reaches _ hreaches]
      · rw [hunlink, Slot.reaches_unlink hreaches]
      · rw [hlisten] at hnext; cases hnext
    · -- the endpoint has just been bound
      have hbound : ((p.side t).step w (launch t) p.artifacts).2.stage.hasBound = true := by rw [hnext]; rfl
      refine .inr ⟨t, isHolding_of_bind ?_ ?_, .inl (by rw [other_step]; exact hquiet t.other)⟩
      · refine (Instance.eq_or_isPast w (launch t) p.artifacts rfl hbound).resolve_right fun hbefore => ?_
        have hstage := hquiet t
        rcases Stage.hasBound_cases hbefore with hs | hs | hs <;> rw [hs] at hstage <;> cases hstage
      · rw [side_step]
        exact Stage.isDown_of_hasBound hbound
  · refine .inr ⟨s, ?_⟩
    rcases s.eq_or_eq_other t with rfl | rfl
    · exact ⟨hholding.step_self, by rwa [other_step]⟩
    · refine ⟨hholding.step_other hc fun hat => ?_, ?_⟩
      · rw [hat] at hother
        rcases hother with hother | hother <;> cases hother
      · rw [side_step]
        rw [Side.other_other] at hnot
        exact Instance.isQuiet_step_of_other w (launch s.other) p.artifacts hother
          (hc.bound s hholding.bound).1 hholding.endpoint hnot

end Contest

end Pair

end WarmCheck.Daemon

import WarmCheck.Proofs.Relay

/-!
# One restart for each batch that calls for one

Each batch that calls for a restart makes one request, which waits with its watcher, then in the queue, and ends in
one restart. So in whatever order things happen, once all is settled there have been as many restarts as such batches.

* `Desk.bursts`: the batches of bursts of events; `Desk.Follows`: what a watcher has got of what it is told.
* `Relay.IsKept`, `Relay.IsKept.run`: where the requests are, all along.
* `Relay.exists_settled`: all can be settled, whatever has happened.
* `Relay.queued_of_waits`: a watcher waits only while the queue is full.
* **`Relay.delivers_run`**: one restart for each batch that calls for one.
-/

namespace WarmCheck.Daemon

open Watch

/-! ## Desks -/

namespace Desk

/-- The batches of the bursts of events, between which the window passes. -/
def bursts (items : List (Nat × Option Event)) : List (Batch Event) :=
  (Feed.runs Reaction.settleWindow items).map (Feed.batchOf Reaction.settleWindow)

/-- What a watcher that asks for a restart or does not has got by a time of what it is told. -/
structure Follows (sc : Scenario) (t : Asker) (now : Nat) (asking : Bool) (d : Desk) : Prop where
  complete : d.batches.flatMap (·.events) ++ d.items.filterMap (·.2) = (sc.timeline t).filterMap (·.2)
  isTimed : d.items.Pairwise (·.1 ≤ ·.1)
  due : asking = false → ∀ b left, d.next? = some (b, left) → now ≤ b.time
  early : d.hasWaited = false → ∀ i ∈ d.items, d.since ≤ i.1
  asks : d.hasWaited = false → asking = true → d.since = now
  inBursts : d.hasWaited = false → d.batches ++ bursts d.items = bursts (sc.timeline t)

variable {sc : Scenario} {t : Asker} {now later : Nat} {asking : Bool} {d : Desk} {b : Batch Event}
  {left : List (Nat × Option Event)}

theorem next?_eq_none_iff : d.next? = none ↔ d.items = [] := by
  rw [next?, Option.map_eq_none_iff, Feed.next_eq_none_iff]
  rfl

theorem split_of_next? (h : d.next? = some (b, left)) :
    ∃ taken, d.items = taken ++ left ∧ b.events = taken.filterMap (·.2) ∧ d.since ≤ b.time := by
  obtain ⟨⟨b', f⟩, hnext, heq⟩ := Option.map_eq_some_iff.mp h
  cases heq
  exact Feed.split_of_next hnext

theorem length_of_next? (h : d.next? = some (b, left)) : left.length < d.items.length := by
  obtain ⟨⟨b', f⟩, hnext, heq⟩ := Option.map_eq_some_iff.mp h
  cases heq
  exact Feed.length_of_next hnext

/-- The next batch of a watcher that asks in time is the next burst. -/
theorem bursts_of_next? (htimed : d.items.Pairwise (·.1 ≤ ·.1)) (hearly : ∀ i ∈ d.items, d.since ≤ i.1)
    (h : d.next? = some (b, left)) : bursts d.items = b :: bursts left ∧ ∀ i ∈ left, b.time ≤ i.1 := by
  cases hruns : Feed.runs Reaction.settleWindow d.items with
  | nil =>
    rw [next?_eq_none_iff.mpr (Feed.runs_eq_nil_iff.mp hruns)] at h
    cases h
  | cons run rest =>
    obtain ⟨hnext, hrest, hlate⟩ := Feed.next_of_runs_lasting (by decide) htimed hearly hruns
    have hgot : d.next? = some (Feed.batchOf Reaction.settleWindow run, rest.flatten) := congrArg (Option.map _) hnext
    rw [hgot] at h
    cases h
    exact ⟨by rw [bursts, bursts, hruns, hrest, List.map_cons], hlate⟩

/-- What stays the same on the desk that changes stays the same on all. -/
theorem apply_update {α : Type} (f : Desk → α) {desks : Asker → Desk} (hd : f d = f (desks t)) (u : Asker) :
    f (Function.update desks t d u) = f (desks u) := by
  by_cases hu : u = t
  · subst hu
    rw [Function.update_self, hd]
  · rw [Function.update_of_ne hu]

namespace Follows

theorem start (sc : Scenario) (t : Asker) : Follows sc t 0 false { items := sc.timeline t } where
  complete := rfl
  isTimed := sc.isTimed t
  due _ _ _ _ := Nat.zero_le _
  early _ _ _ := Nat.zero_le _
  asks _ h := by cases h
  inBursts _ := rfl

theorem pass (h : Follows sc t now asking d) (hlater : now ≤ later)
    (hidle : asking = false → ∀ b left, d.next? = some (b, left) → later ≤ b.time) :
    Follows sc t later asking { d with hasWaited := d.hasWaited || (asking && decide (now < later)) } where
  complete := h.complete
  isTimed := h.isTimed
  due := hidle
  early hwaited := h.early (Bool.or_eq_false_iff.mp hwaited).1
  asks hwaited hasking := by
    obtain ⟨hbefore, hmeanwhile⟩ := Bool.or_eq_false_iff.mp hwaited
    have hnow : now = later := by
      rw [hasking, Bool.true_and, decide_eq_false_iff_not] at hmeanwhile
      omega
    exact (h.asks hbefore hasking).trans hnow
  inBursts hwaited := h.inBursts (Bool.or_eq_false_iff.mp hwaited).1

theorem get (h : Follows sc t now false d) (hnext : d.next? = some (b, left)) (hdue : b.time = now) (calls : Bool) :
    Follows sc t now calls (d.get b left now) := by
  obtain ⟨taken, hitems, hevents, -⟩ := split_of_next? hnext
  refine ⟨?_, ?_, fun _ b' left' hnext' => ?_, fun hwaited => ?_, fun _ _ => rfl, fun hwaited => ?_⟩
  · rw [← h.complete, hitems, Desk.get, List.flatMap_append, List.filterMap_append, ← hevents]
    simp
  · have htimed := h.isTimed
    rw [hitems] at htimed
    exact (List.pairwise_append.mp htimed).2.1
  · obtain ⟨-, -, -, hlate⟩ := split_of_next? hnext'
    exact hlate
  · rw [← hdue]
    exact (bursts_of_next? h.isTimed (h.early hwaited) hnext).2
  · rw [← h.inBursts hwaited, (bursts_of_next? h.isTimed (h.early hwaited) hnext).1]
    exact List.append_assoc ..

theorem enqueue (h : Follows sc t now true d) : Follows sc t now false { d with since := now } where
  complete := h.complete
  isTimed := h.isTimed
  due _ b left hnext := by
    obtain ⟨-, -, -, hlate⟩ := split_of_next? hnext
    exact hlate
  early hwaited := by
    rw [← h.asks hwaited rfl]
    exact h.early hwaited
  asks _ hasking := by cases hasking
  inBursts := h.inBursts

/-- What the watchers have got, when that of one has changed. -/
theorem update {desks : Asker → Desk} {asks : Asker → Bool} (h : ∀ u, Follows sc u now (asks u) (desks u))
    (ht : Follows sc t now asking d) (u : Asker) :
    Follows sc u now (Function.update asks t asking u) (Function.update desks t d u) := by
  by_cases hu : u = t
  · subst hu
    rw [Function.update_self, Function.update_self]
    exact ht
  · rw [Function.update_of_ne hu, Function.update_of_ne hu]
    exact h u

end Follows

end Desk

/-! ## Where the requests are -/

namespace Relay

/-- The number of requests that wait with their watchers. -/
def asking (s : Relay) : Nat := Asker.both fun t => (s.isAsking t).toNat

/-- Each batch that called for a restart has made one request, which is with its watcher, in the queue, or answered
by a restart. -/
structure IsKept (sc : Scenario) (s : Relay) : Prop where
  running : s.tasks.supervisor = .running
  state : ∀ t, s.tasks.watcher? t.task = some (if s.isAsking t then .asking else .watching)
  room : s.tasks.queued ≤ Tasks.queueSize
  generation : s.tasks.scene.supervisor.generation = 1 + s.restarts
  known : s.known = sc.knownAfter .bigChanges (s.desks .bigChanges).batches
  ledger : s.restarts + s.tasks.queued + s.asking = s.qualifying sc
  desks : ∀ t, (s.desks t).Follows sc t s.now (s.isAsking t)

variable {sc : Scenario} {s s' : Relay} {t : Asker}

/-! ### Views of the state -/

theorem isAsking_eq_of_watcher? {asks : Asker → Bool}
    (h : ∀ u, s.tasks.watcher? u.task = some (if asks u then .asking else .watching)) : s.isAsking = asks := by
  funext u
  rw [isAsking, h u]
  cases asks u <;> rfl

theorem watcher?_of_not_asking (h : s.IsKept sc) (ht : s.isAsking t = false) :
    s.tasks.watcher? t.task = some .watching := by
  rw [h.state t, ht]
  rfl

theorem watcher?_of_asking (ht : s.isAsking t = true) : s.tasks.watcher? t.task = some .asking :=
  eq_of_beq ht

/-- The states of the watchers after that of one has changed. -/
theorem watcher?_setWatcher_task (h : s.IsKept sc) (t : Asker) (asks : Bool) (u : Asker) :
    (s.tasks.setWatcher t.task (if asks then .asking else .watching)).watcher? u.task =
      some (if Function.update s.isAsking t asks u then .asking else .watching) := by
  rw [Tasks.watcher?_setWatcher, h.state u]
  by_cases hu : u = t
  · subst hu
    simp
  · simp [Asker.task_inj, hu]

/-- What becomes of requests when a watcher gets a batch: if that calls for a restart, the watcher asks. -/
theorem batch_cases (h : s.IsKept sc) {calls : Bool} {tasks : Tasks}
    (hbatch : s.tasks.batch t.task calls = some tasks) :
    s.isAsking t = false ∧ tasks.supervisor = .running ∧ tasks.queued = s.tasks.queued ∧
      tasks.scene = s.tasks.scene ∧ ∀ u, tasks.watcher? u.task =
        some (if Function.update s.isAsking t calls u then .asking else .watching) := by
  obtain ⟨hwatching, rfl⟩ := Tasks.batch_eq_some_iff.mp hbatch
  have hbefore : s.isAsking t = false := by rw [isAsking, hwatching]; rfl
  cases calls with
  | true => exact ⟨hbefore, h.running, rfl, rfl, watcher?_setWatcher_task h t true⟩
  | false =>
    refine ⟨hbefore, h.running, rfl, rfl, fun u => ?_⟩
    rw [Function.update_eq_self_iff.mpr hbefore.symm]
    exact h.state u

/-- What becomes of requests when one gets into the queue. -/
theorem enqueue_cases (h : s.IsKept sc) {tasks : Tasks} (henqueue : s.tasks.enqueue t.task = some tasks) :
    s.isAsking t = true ∧ tasks.supervisor = .running ∧ s.tasks.queued < Tasks.queueSize ∧
      tasks.queued = s.tasks.queued + 1 ∧ tasks.scene = s.tasks.scene ∧ ∀ u, tasks.watcher? u.task =
        some (if Function.update s.isAsking t false u then .asking else .watching) := by
  obtain ⟨hasking, hroom, rfl⟩ := (Tasks.enqueue_eq_some_iff h.running).mp henqueue
  exact ⟨by rw [isAsking, hasking]; rfl, h.running, hroom, rfl, rfl, watcher?_setWatcher_task h t false⟩

theorem asking_eq (s : Relay) (t : Asker) : s.asking = (s.isAsking t).toNat + (s.isAsking t.other).toNat :=
  Asker.both_eq _ t

theorem qualifying_eq (s : Relay) (t : Asker) : s.qualifying sc =
    sc.qualifying t (s.desks t).batches + sc.qualifying t.other (s.desks t.other).batches :=
  Asker.both_eq _ t

/-! ### What a step preserves -/

namespace IsKept

theorem start (sc : Scenario) (startable : Bool) (stamp : UInt64) : IsKept sc (Relay.start sc startable stamp) where
  running := rfl
  state t := by cases t <;> rfl
  room := Nat.zero_le _
  generation := by
    show ((Supervisor.new stamp).start startable).generation = 1
    rw [Supervisor.generation_start]
    rfl
  known := rfl
  ledger := rfl
  desks t := by
    cases t
    · exact Desk.Follows.start sc .head
    · exact Desk.Follows.start sc .bigChanges

theorem pass (h : s.IsKept sc) {later : Nat} (hlater : s.now ≤ later) (hidle : ∀ t, s.isIdleUntil later t = true) :
    (s.pass later).IsKept sc where
  running := h.running
  state := h.state
  room := h.room
  generation := h.generation
  known := h.known
  ledger := h.ledger
  desks t := by
    refine (h.desks t).pass hlater fun hasking b left hnext => ?_
    have hdue := hidle t
    rw [isIdleUntil, if_neg (by rw [hasking]; exact Bool.false_ne_true), hnext] at hdue
    exact of_decide_eq_true hdue

/-- The verdict on a batch that a watcher gets. -/
theorem verdict_eq (h : s.IsKept sc) (t : Asker) (b : Batch Event) :
    (sc.judge t s.known b).2 = (sc.judge t (sc.knownAfter t (s.desks t).batches) b).2 :=
  sc.verdict_congr t (fun ht => by rw [ht]; exact h.known) b

theorem collect (h : s.IsKept sc) {b : Batch Event} {left : List (Nat × Option Event)}
    (hnext : (s.desks t).next? = some (b, left)) (hdue : b.time = s.now) (hcollect : s.collect sc t b left = some s') :
    s'.IsKept sc := by
  obtain ⟨hbatch, hknown, hdesks, hnow, -, hrestarts⟩ := collect_cases hcollect
  obtain ⟨hbefore, hrunning, hqueued, hscene, hview⟩ := batch_cases h hbatch
  have hasks := isAsking_eq_of_watcher? hview
  refine ⟨hrunning, ?_, ?_, ?_, ?_, ?_, ?_⟩
  · rw [hasks]
    exact hview
  · rw [hqueued]
    exact h.room
  · rw [hscene, hrestarts]
    exact h.generation
  · rw [hknown, hdesks, h.known]
    cases t with
    | head => rfl
    | bigChanges => exact (sc.knownAfter_concat .bigChanges _ b).symm
  · -- a request has come to its watcher exactly if one more batch calls for a restart
    have hledger := h.ledger
    have hverdict := h.verdict_eq t b
    rw [asking_eq s t, qualifying_eq s t, hbefore] at hledger
    rw [asking_eq s' t, qualifying_eq s' t, hasks, hdesks, hqueued, hrestarts]
    simp only [Function.update_self, Function.update_of_ne t.other_ne, Desk.get, sc.qualifying_concat, ← hverdict]
    simp only [Bool.toNat_false] at hledger
    omega
  · have hdesk : (s.desks t).Follows sc t s.now false := hbefore ▸ h.desks t
    rw [hnow, hasks, hdesks]
    exact Desk.Follows.update h.desks (hdesk.get hnext hdue _)

theorem enqueue (h : s.IsKept sc) (hstep : s.step sc (.enqueue t) = some s') : s'.IsKept sc := by
  obtain ⟨henqueue, hknown, hdesks, hnow, -, hrestarts⟩ := step_enqueue_cases hstep
  obtain ⟨hbefore, hrunning, hroom, hqueued, hscene, hview⟩ := enqueue_cases h henqueue
  have hasks := isAsking_eq_of_watcher? hview
  have hbatches : ∀ u, (s'.desks u).batches = (s.desks u).batches := by
    intro u
    have hsame : ({ s.desks t with since := s.now } : Desk).batches = (s.desks t).batches := rfl
    rw [hdesks]
    exact Desk.apply_update (·.batches) hsame u
  refine ⟨hrunning, ?_, ?_, ?_, ?_, ?_, ?_⟩
  · rw [hasks]
    exact hview
  · rw [hqueued]
    exact hroom
  · rw [hscene, hrestarts]
    exact h.generation
  · rw [hknown, hbatches]
    exact h.known
  · -- the request goes from its watcher into the queue
    have hledger := h.ledger
    rw [asking_eq s t, qualifying_eq s t, hbefore] at hledger
    rw [asking_eq s' t, qualifying_eq s' t, hasks, hbatches, hbatches, hqueued, hrestarts]
    simp only [Function.update_self, Function.update_of_ne t.other_ne, Bool.toNat_false]
    simp only [Bool.toNat_true] at hledger
    omega
  · have hdesk : (s.desks t).Follows sc t s.now true := hbefore ▸ h.desks t
    rw [hnow, hasks, hdesks]
    exact Desk.Follows.update h.desks hdesk.enqueue

theorem take (h : s.IsKept sc) {startable : Bool} {stamp : UInt64}
    (hstep : s.step sc (.take startable stamp) = some s') : s'.IsKept sc := by
  obtain ⟨-, hqueued, rfl⟩ := (step_take_iff sc h.running startable stamp).mp hstep
  refine ⟨h.running, h.state, ?_, ?_, h.known, ?_, h.desks⟩
  · exact Nat.le_trans (Nat.sub_le ..) h.room
  · show (s.tasks.scene.supervisor.restart startable stamp).generation = 1 + (s.restarts + 1)
    rw [Supervisor.generation_restart, h.generation]
    omega
  · show s.restarts + 1 + (s.tasks.queued - 1) + s.asking = s.qualifying sc
    rw [← h.ledger]
    omega

theorem act (h : s.IsKept sc) {a : Checker.Act} {stamp : UInt64} (hstep : s.step sc (.act a stamp) = some s') :
    s'.IsKept sc := by
  simp only [step] at hstep
  split at hstep
  · cases hstep
  · obtain ⟨tasks, hact, rfl⟩ := Option.map_eq_some_iff.mp hstep
    rw [Tasks.step, h.running] at hact
    obtain ⟨scene, hscene, rfl⟩ := Option.map_eq_some_iff.mp hact
    exact ⟨rfl, h.state, h.room, (generation_act? hscene).trans h.generation, h.known, h.ledger, h.desks⟩

theorem step (h : s.IsKept sc) {i : Step} (hstep : s.step sc i = some s') : s'.IsKept sc := by
  cases i with
  | pass later =>
    obtain ⟨⟨hlater, hidle⟩, rfl⟩ := step_pass_iff.mp hstep
    exact h.pass hlater hidle
  | collect t =>
    obtain ⟨b, left, hnext, hdue, hcollect⟩ := step_collect_iff.mp hstep
    exact h.collect hnext hdue hcollect
  | enqueue t => exact h.enqueue hstep
  | take startable stamp => exact h.take hstep
  | restarted =>
    simp only [Relay.step] at hstep
    split at hstep
    · cases hstep
      exact ⟨h.running, h.state, h.room, h.generation, h.known, h.ledger, h.desks⟩
    · cases hstep
  | act a stamp => exact h.act hstep

theorem run (h : s.IsKept sc) (steps : List Step) : (s.run sc steps).IsKept sc := by
  induction steps generalizing s with
  | nil => exact h
  | cons i steps ih =>
    rw [Relay.run, List.foldl_cons]
    cases hstep : s.step sc i with
    | none => exact ih h
    | some s' => exact ih (h.step hstep)

end IsKept

/-! ## Settling -/

/-- What is left to do: an item may come to a request, a request gets into the queue, is taken, and is answered. -/
def work (s : Relay) : Nat :=
  4 * Asker.both (fun t => (s.desks t).items.length) + 3 * s.asking + 2 * s.tasks.queued + s.isRestarting.toNat

theorem isSettled_of_work_eq_zero (h : s.work = 0) : s.IsSettled := by
  have hparts : ∀ t, (s.desks t).items.length = 0 ∧ (s.isAsking t).toNat = 0 := by
    intro t
    rw [work, asking_eq s t, Asker.both_eq _ t] at h
    omega
  rw [work] at h
  refine ⟨fun t => List.length_eq_zero_iff.mp (hparts t).1, fun t => ?_, by omega, ?_⟩
  · exact Bool.toNat_eq_zero.mp (hparts t).2
  · exact Bool.toNat_eq_zero.mp (by omega)

theorem work_collect (h : s.IsKept sc) {b : Batch Event} {left : List (Nat × Option Event)}
    (hnext : (s.desks t).next? = some (b, left)) (hcollect : s.collect sc t b left = some s') : s'.work < s.work := by
  obtain ⟨hbatch, -, hdesks, -, hrestarting, -⟩ := collect_cases hcollect
  obtain ⟨hbefore, -, hqueued, -, hview⟩ := batch_cases h hbatch
  have hasks := isAsking_eq_of_watcher? hview
  have hshorter : left.length < (s.desks t).items.length := Desk.length_of_next? hnext
  have hcall : ((sc.judge t s.known b).2).toNat ≤ 1 := Bool.toNat_le _
  rw [work, work, asking_eq s' t, asking_eq s t, Asker.both_eq _ t, Asker.both_eq _ t, hasks, hdesks, hqueued,
    hrestarting, hbefore]
  simp only [Function.update_self, Function.update_of_ne t.other_ne, Desk.get, Bool.toNat_false]
  omega

theorem isIdleUntil_of_next? {later : Nat} (hasking : s.isAsking t = false)
    (h : ∀ b left, (s.desks t).next? = some (b, left) → later ≤ b.time) : s.isIdleUntil later t = true := by
  rw [isIdleUntil, if_neg (by rw [hasking]; exact Bool.false_ne_true), Option.all_eq_true]
  intro ⟨b, left⟩ hnext
  exact decide_eq_true (h b left hnext)

/-- One of the batches of watchers that ask for nothing is due first. -/
theorem exists_due (hasks : ∀ t, s.isAsking t = false) (ht : (s.desks t).items ≠ []) :
    ∃ u b left, (s.desks u).next? = some (b, left) ∧ ∀ v, s.isIdleUntil b.time v = true := by
  obtain ⟨⟨b, left⟩, hb⟩ := Option.ne_none_iff_exists'.mp (mt Desk.next?_eq_none_iff.mp ht)
  have hfirst : ∀ u b left, (s.desks u).next? = some (b, left) →
      (∀ b' left', (s.desks u.other).next? = some (b', left') → b.time ≤ b'.time) →
      ∀ v, s.isIdleUntil b.time v = true := by
    intro u b left hu hother v
    refine isIdleUntil_of_next? (hasks v) fun b' left' hv => ?_
    rcases u.eq_or_eq_other v with rfl | rfl
    · rw [hu] at hv
      cases hv
      exact Nat.le_refl _
    · exact hother b' left' hv
  by_cases hlater : ∀ b' left', (s.desks t.other).next? = some (b', left') → b.time ≤ b'.time
  · exact ⟨t, b, left, hb, hfirst t b left hb hlater⟩
  · push Not at hlater
    obtain ⟨b', left', hb', hsooner⟩ := hlater
    refine ⟨t.other, b', left', hb', hfirst t.other b' left' hb' fun b'' left'' hb'' => ?_⟩
    rw [Asker.other_other, hb] at hb''
    cases hb''
    exact Nat.le_of_lt hsooner

/-- The batch that is due first can be waited for, and got. -/
theorem exists_collect (h : s.IsKept sc) {b : Batch Event} {left : List (Nat × Option Event)}
    (hasking : s.isAsking t = false) (hnext : (s.desks t).next? = some (b, left))
    (hidle : ∀ v, s.isIdleUntil b.time v = true) : ∃ steps, (s.run sc steps).work < s.work := by
  have hpass : s.step sc (.pass b.time) = some (s.pass b.time) :=
    step_pass_iff.mpr ⟨⟨(h.desks t).due hasking b left hnext, hidle⟩, rfl⟩
  have hwatching := watcher?_of_not_asking (h.step hpass) hasking
  obtain ⟨s', hcollect⟩ := exists_eq_collect sc hwatching b left
  have hstep : (s.pass b.time).step sc (.collect t) = some s' :=
    step_collect_iff.mpr ⟨b, left, hnext, rfl, hcollect⟩
  refine ⟨[.pass b.time] ++ [.collect t], ?_⟩
  rw [run_append, run_of_step hpass, run_of_step hstep]
  exact work_collect (s := s.pass b.time) (h.step hpass) hnext hcollect

/-- A request that waits with its watcher can get into the queue, if there is room. -/
theorem exists_enqueue (h : s.IsKept sc) (hasking : s.isAsking t = true)
    (hroom : s.tasks.queued < Tasks.queueSize) : ∃ steps, (s.run sc steps).work < s.work := by
  obtain ⟨s', hstep⟩ : ∃ s', s.step sc (.enqueue t) = some s' := by
    rw [step, (Tasks.enqueue_eq_some_iff h.running).mpr ⟨watcher?_of_asking hasking, hroom, rfl⟩]
    exact ⟨_, rfl⟩
  obtain ⟨henqueue, -, hdesks, -, hrestarting, -⟩ := step_enqueue_cases hstep
  obtain ⟨-, -, -, hqueued, -, hview⟩ := enqueue_cases h henqueue
  refine ⟨[.enqueue t], ?_⟩
  rw [run_of_step hstep, work, work, asking_eq s' t, asking_eq s t, Asker.both_eq _ t, Asker.both_eq _ t,
    isAsking_eq_of_watcher? hview, hdesks, hqueued, hrestarting, hasking]
  simp only [Function.update_self, Function.update_of_ne t.other_ne, Bool.toNat_false, Bool.toNat_true]
  omega

/-- A request in the queue can be taken, unless a restart is under way. -/
theorem exists_take (h : s.IsKept sc) (hidle : s.isRestarting = false) (hqueued : 0 < s.tasks.queued) :
    ∃ steps, (s.run sc steps).work < s.work := by
  have hstep := (step_take_iff sc h.running true 0).mpr ⟨hidle, hqueued, rfl⟩
  refine ⟨[.take true 0], ?_⟩
  rw [run_of_step hstep, work, work, hidle]
  set items := Asker.both fun t => (s.desks t).items.length
  show 4 * items + 3 * s.asking + 2 * (s.tasks.queued - 1) + 1 < 4 * items + 3 * s.asking + 2 * s.tasks.queued + 0
  omega

/-- As long as something is left to do, some of it can be done. -/
theorem exists_progress (h : s.IsKept sc) (hwork : s.work ≠ 0) : ∃ steps, (s.run sc steps).work < s.work := by
  by_cases hrestarting : s.isRestarting = true
  · have hstep : s.step sc .restarted = some { s with isRestarting := false } := if_pos hrestarting
    refine ⟨[.restarted], ?_⟩
    rw [run_of_step hstep, work, work, hrestarting]
    exact Nat.lt_succ_self _
  rw [Bool.not_eq_true] at hrestarting
  by_cases hqueued : 0 < s.tasks.queued
  · exact exists_take h hrestarting hqueued
  have hempty : s.tasks.queued = 0 := Nat.eq_zero_of_not_pos hqueued
  by_cases hasking : ∃ t, s.isAsking t = true
  · obtain ⟨t, ht⟩ := hasking
    exact exists_enqueue h ht (by rw [hempty]; decide)
  · simp only [not_exists, Bool.not_eq_true] at hasking
    obtain ⟨t, ht⟩ : ∃ t, (s.desks t).items ≠ [] := by
      by_contra hnone
      simp only [ne_eq, not_exists, not_not] at hnone
      refine hwork ?_
      rw [work, asking, Asker.both, Asker.both, hrestarting, hempty]
      simp only [hnone, hasking, List.length_nil, Bool.toNat_false]
    obtain ⟨u, b, left, hnext, hidle⟩ := exists_due hasking ht
    exact exists_collect h (hasking u) hnext hidle

/-- Whatever has happened, all can be settled. -/
theorem exists_settled (h : s.IsKept sc) : ∃ more, (s.run sc more).IsSettled := by
  induction hwork : s.work using Nat.strong_induction_on generalizing s with
  | _ n ih =>
    by_cases hzero : n = 0
    · exact ⟨[], isSettled_of_work_eq_zero (hwork.trans hzero)⟩
    · obtain ⟨steps, hless⟩ := exists_progress h (by omega)
      obtain ⟨more, hsettled⟩ := ih _ (by omega) (h.run steps) rfl
      exact ⟨steps ++ more, by rw [run_append]; exact hsettled⟩

/-- A watcher waits only while it asks for a restart and the queue is full. -/
theorem queued_of_waits {i : Step} (hstep : s.step sc i = some s') (hbefore : (s.desks t).hasWaited = false)
    (hafter : (s'.desks t).hasWaited = true) : s.isAsking t = true ∧ s.tasks.queued = Tasks.queueSize := by
  have hsame : ∀ {u : Asker} {d : Desk}, s'.desks = Function.update s.desks u d →
      d.hasWaited = (s.desks u).hasWaited → False := by
    intro u d hdesks hd
    rw [hdesks, Desk.apply_update (·.hasWaited) hd, hbefore] at hafter
    cases hafter
  cases i with
  | pass later =>
    obtain ⟨⟨-, hidle⟩, rfl⟩ := step_pass_iff.mp hstep
    have hwaits : ((s.desks t).hasWaited || (s.isAsking t && decide (s.now < later))) = true := hafter
    rw [hbefore, Bool.false_or, Bool.and_eq_true] at hwaits
    have hfull := hidle t
    rw [isIdleUntil, if_pos hwaits.1] at hfull
    exact ⟨hwaits.1, of_decide_eq_true hfull⟩
  | collect u =>
    obtain ⟨b, left, -, -, hcollect⟩ := step_collect_iff.mp hstep
    obtain ⟨-, -, hdesks, -⟩ := collect_cases hcollect
    exact (hsame hdesks rfl).elim
  | enqueue u =>
    obtain ⟨-, -, hdesks, -⟩ := step_enqueue_cases hstep
    exact (hsame hdesks rfl).elim
  | take startable stamp | act a stamp =>
    simp only [step] at hstep
    split at hstep
    · cases hstep
    · obtain ⟨tasks, -, rfl⟩ := Option.map_eq_some_iff.mp hstep
      exact absurd (hbefore.symm.trans hafter) Bool.false_ne_true
  | restarted =>
    simp only [step] at hstep
    split at hstep
    · cases hstep
      exact absurd (hbefore.symm.trans hafter) Bool.false_ne_true
    · cases hstep

/-! ## The whole -/

/-- Each batch that calls for a restart makes one request and one restart. -/
structure Delivers (sc : Scenario) (s : Relay) : Prop where
  /-- A request is answered, or in the queue, or waits with its watcher. -/
  ledger : s.restarts + s.tasks.queued + s.asking = s.qualifying sc
  room : s.tasks.queued ≤ Tasks.queueSize
  settled : s.IsSettled → s.restarts = s.qualifying sc
  /-- The first generation is that of the checker at the beginning. -/
  generation : s.tasks.scene.supervisor.generation = 1 + s.restarts
  verdicts : ∀ t before b,
    (sc.judge t (sc.knownAfter t before) b).2 = true ↔ sc.Qualifies t (sc.knownAfter t before) b
  /-- No event is lost, told twice or told in another order. -/
  complete : ∀ t, (s.desks t).batches.flatMap (·.events) ++ (s.desks t).items.filterMap (·.2) =
    (sc.timeline t).filterMap (·.2)
  inBursts : ∀ t, (s.desks t).hasWaited = false →
    (s.desks t).batches ++ Desk.bursts (s.desks t).items = Desk.bursts (sc.timeline t)
  /-- One restart for each burst that calls for one, if no watcher has had to wait for room. -/
  bursts : s.IsSettled → (∀ t, (s.desks t).hasWaited = false) →
    s.restarts = Asker.both fun t => sc.qualifying t (Desk.bursts (sc.timeline t))
  settles : ∃ more, (s.run sc more).IsSettled

theorem IsKept.restarts_eq (h : s.IsKept sc) (hsettled : s.IsSettled) : s.restarts = s.qualifying sc := by
  rw [← h.ledger, asking, Asker.both, hsettled.queued, hsettled.asks, hsettled.asks]
  rfl

theorem IsKept.batches_eq (h : s.IsKept sc) (hsettled : s.IsSettled) (hwaited : (s.desks t).hasWaited = false) :
    (s.desks t).batches = Desk.bursts (sc.timeline t) := by
  rw [← (h.desks t).inBursts hwaited, hsettled.items t]
  exact (List.append_nil _).symm

/-- **One restart for each batch that calls for one**, whatever happens in whatever order. -/
theorem delivers_run (sc : Scenario) (startable : Bool) (stamp : UInt64) (steps : List Step) :
    Delivers sc ((start sc startable stamp).run sc steps) := by
  have h := (IsKept.start sc startable stamp).run steps
  refine ⟨h.ledger, h.room, h.restarts_eq, h.generation, fun t before b => ?_, fun t => (h.desks t).complete,
    fun t => (h.desks t).inBursts, fun hsettled hwaited => ?_, exists_settled h⟩
  · exact sc.judge_iff t (sc.isOrdered_knownAfter t before) b
  · rw [h.restarts_eq hsettled, qualifying]
    congr 1
    funext t
    rw [h.batches_eq hsettled (hwaited t)]

/-- Two bursts about the head. The second request gets into the queue while the first restart is under way. -/
theorem delivers_run_two_bursts :
    let head : Path := .ofString "/w/.git/HEAD"
    let moved : Option Event := some ⟨.modifyName, [head]⟩
    let sc : Scenario := {
      timeline := fun t => if t = .head then [(10, moved), (60, moved), (400, moved)] else []
      head, known := {}, disk := fun _ => ⟨.dir 0o755 [], []⟩
      isTimed := by decide
      isOrdered := List.Pairwise.nil }
    let s := (start sc true 0).run sc [.pass 160, .collect .head, .enqueue .head, .take true 0, .pass 500,
      .collect .head, .enqueue .head, .restarted, .take true 0, .restarted]
    s.IsSettled ∧ (Asker.both fun t => sc.qualifying t (Desk.bursts (sc.timeline t))) = 2 ∧ s.restarts = 2 ∧
      s.tasks.scene.supervisor.generation = 3 := by
  intro head moved sc s
  have h : Delivers sc s := delivers_run sc true 0 _
  have hsettled : s.IsSettled := ⟨by decide +kernel, by decide +kernel, by decide +kernel, by decide +kernel⟩
  have hwaited : ∀ t, (s.desks t).hasWaited = false := by decide +kernel
  have hqualifying : (Asker.both fun t => sc.qualifying t (Desk.bursts (sc.timeline t))) = 2 := by decide +kernel
  have hrestarts : s.restarts = 2 := (h.bursts hsettled hwaited).trans hqualifying
  exact ⟨hsettled, hqualifying, hrestarts, by rw [h.generation, hrestarts]⟩

end Relay

end WarmCheck.Daemon

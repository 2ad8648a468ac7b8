import WarmCheck.Daemon.Session
import WarmCheck.Proofs.Restarts

/-!
# Bursts

What a daemon makes of a burst of changes is what its watchers and its supervisor make of it, if they are left to
settle.

* `Feed.next_of_now`, `Reaction.batchesAt_of_ne_nil`: events that come at one time make one batch.
* `Tasks.IsWaiting`: tasks that wait for something to happen; `Tasks.IsWaiting.exists_request`: a restart that is
  asked for then.
* `Session.scenario`, `Session.relay`: the watchers of a session at the beginning of a burst.
* `Relay.Handles`, `Relay.exists_handles_told`: a watcher that handles its only batch.
* **`Session.exists_settled_watchers`**: a session after a burst is what its watchers settle at.
-/

namespace WarmCheck

open Watch

/-! ## Events that come at one time -/

namespace Watch

variable {ε : Type} {window close : Nat}

theorem Feed.gather_of_now {now : Nat} (hclose : now + window ≤ close) (es : List ε) :
    gather window close now (es.map fun e => (now, some e)) = (es, now + window, []) := by
  induction es with
  | nil => rw [List.map_nil, gather, if_neg (Nat.not_lt.mpr hclose)]
  | cons e es ih =>
    have hin : arrivesIn window now now = true := by simp [arrivesIn]
    rw [List.map_cons, gather, if_pos hin, Nat.max_self, ih]
    rfl

theorem Feed.next_of_now {now : Nat} (hclose : now + window ≤ close) {es : List ε} (hne : es ≠ []) :
    next window ⟨es.map fun e => (now, some e), close⟩ now = some (⟨now + window, es⟩, ⟨[], close⟩) := by
  obtain ⟨e, es, rfl⟩ := List.exists_cons_of_ne_nil hne
  simp only [next, List.map_cons, Nat.max_self, gather_of_now hclose]
  rfl

theorem Reaction.batchesAt_nil (now : Nat) : batchesAt now [] = [] := by
  rw [batchesAt, Feed.batches_of_next_eq_none rfl]
  rfl

theorem Reaction.batchesAt_of_ne_nil (now : Nat) {es : List Event} (hne : es ≠ []) : batchesAt now es = [es] := by
  have hnext : Feed.next settleWindow ⟨es.map fun e => (now, some e), now + 2 * settleWindow⟩ now =
      some (⟨now + settleWindow, es⟩, ⟨[], now + 2 * settleWindow⟩) := Feed.next_of_now (by omega) hne
  rw [batchesAt, Feed.batches_of_next hnext, Feed.batches_of_next_eq_none rfl]
  rfl

end Watch

/-- All that actions touch that are carried out in order. -/
def Disk.touchesAll (d : Disk) : List Disk.Action → List Touch
  | [] => []
  | a :: actions => d.touches a ++ (d.actOrStay a).touchesAll actions

namespace Daemon

/-! ## Tasks that wait -/

namespace Tasks

/-- Nothing is in the queue, the supervisor is running, and every watcher waits for a batch. -/
structure IsWaiting (s : Tasks) : Prop where
  running : s.supervisor = .running
  queued : s.queued = 0
  watching : ∀ t state, s.watcher? t = some state → state = .watching

variable {s : Tasks} {t : TaskName} {startable : Bool} {now : UInt64}

theorem isWaiting_begin (has : TaskName → Bool) (startable : Bool) (now : UInt64) :
    (begin has startable now).IsWaiting :=
  ⟨rfl, rfl, fun _ _ h => watcher?_begin h⟩

theorem watcher?_begin_of_has {has : TaskName → Bool} (hmem : t ∈ watcherNames) (hhas : has t = true)
    (startable : Bool) (now : UInt64) :
    (begin has startable now).watcher? t = some .watching := by
  cases hstate : (begin has startable now).watcher? t with
  | some state => rw [watcher?_begin hstate]
  | none =>
    have hin : (t, WatcherState.watching) ∈ (begin has startable now).watchers :=
      List.mem_map_of_mem (List.mem_filter.mpr ⟨hmem, hhas⟩)
    exact absurd rfl (bne_iff_ne.mp (List.lookup_eq_none_iff.mp hstate _ hin))

theorem watcher?_setWatcher_watching (h : s.watcher? t = some .watching) (state : WatcherState) (u : TaskName) :
    ((s.setWatcher t state).setWatcher t .watching).watcher? u = s.watcher? u := by
  rw [watcher?_setWatcher, watcher?_setWatcher]
  split
  · next hu =>
    subst hu
    rw [h]
    rfl
  · rfl

/-- A restart that is asked for while all wait is carried out, and all wait again. -/
theorem IsWaiting.exists_request (h : s.IsWaiting) (hwatching : s.watcher? t = some .watching) (startable : Bool)
    (now : UInt64) :
    ∃ asking queued, s.batch t true = some asking ∧ asking.enqueue t = some queued ∧
      queued.restart startable now = some (s.request t startable now) ∧ (s.request t startable now).IsWaiting ∧
      ∀ u, (s.request t startable now).watcher? u = s.watcher? u := by
  set asking := s.setWatcher t .asking with hasking
  set queued : Tasks := { asking.setWatcher t .watching with queued := s.queued + 1 } with hqueued
  have hbatch : s.batch t true = some asking := batch_eq_some_iff.mpr ⟨hwatching, rfl⟩
  have hasks : asking.watcher? t = some .asking := by
    rw [hasking, watcher?_setWatcher, if_pos rfl, hwatching]
    rfl
  have hroom : asking.queued < queueSize := by
    show s.queued < queueSize
    rw [h.queued]
    decide
  have henqueue : asking.enqueue t = some queued :=
    (enqueue_eq_some_iff (s := asking) h.running).mpr ⟨hasks, hroom, rfl⟩
  have hrestart : queued.restart startable now = some
      { queued with queued := s.queued + 1 - 1, scene := { s.scene with startable }.restart now } :=
    (restart_eq_some_iff (s := queued) h.running).mpr ⟨Nat.succ_pos _, rfl⟩
  have hrequest : s.request t startable now =
      { queued with queued := s.queued + 1 - 1, scene := { s.scene with startable }.restart now } := by
    simp only [request, run, List.foldl_cons, List.foldl_nil, step, hbatch, Option.getD_some, henqueue, hrestart]
  have hwatchers : ∀ u, (s.request t startable now).watcher? u = s.watcher? u := fun u => by
    rw [hrequest]
    exact watcher?_setWatcher_watching hwatching .asking u
  refine ⟨asking, queued, hbatch, henqueue, hrequest ▸ hrestart, ⟨?_, ?_, fun u state hu => ?_⟩, hwatchers⟩
  · rw [hrequest]
    exact h.running
  · rw [hrequest]
    exact h.queued
  · rw [hwatchers] at hu
    exact h.watching u state hu

end Tasks

/-! ## Watchers with one batch -/

theorem Desk.next?_of_now {now : Nat} {es : List Event} (hne : es ≠ []) {d : Desk}
    (hitems : d.items = es.map fun e => (now, some e)) (hsince : d.since = now) :
    d.next? = some (⟨now + Reaction.settleWindow, es⟩, []) := by
  obtain ⟨e, hmem⟩ := List.exists_mem_of_ne_nil es hne
  have hclose : now + Reaction.settleWindow ≤ (Feed.lasting Reaction.settleWindow now d.items).close :=
    Feed.le_close_lasting now d.items (now, some e) (hitems ▸ List.mem_map_of_mem hmem)
  rw [next?, hsince, Feed.lasting, hitems] at *
  rw [Feed.next_of_now hclose hne]
  rfl

theorem Scenario.judge_nil (sc : Scenario) (t : Asker) (k : KnownFiles) (now : Nat) :
    sc.judge t k ⟨now, []⟩ = (k, false) := by
  cases t <;> rfl

namespace Relay

variable {s s' : Relay} {t : Asker} {startable : Bool} {stamp : UInt64}

theorem isAsking_of_isWaiting (h : s.tasks.IsWaiting) (t : Asker) : s.isAsking t = false := by
  rw [isAsking]
  cases hstate : s.tasks.watcher? t.task with
  | none => rfl
  | some state =>
    rw [h.watching _ _ hstate]
    rfl

/-- A watcher has handled what it was told, and the supervisor has done what it was asked for. -/
structure Handles (s : Relay) (t : Asker) (judged : KnownFiles × Bool) (startable : Bool) (stamp : UInt64)
    (s' : Relay) : Prop where
  tasks : s'.tasks = if judged.2 then s.tasks.request t.task startable stamp else s.tasks
  known : s'.known = judged.1
  items : (s'.desks t).items = []
  other : s'.desks t.other = s.desks t.other
  now : s'.now = s.now
  idle : s'.isRestarting = false

theorem exists_handles (sc : Scenario) (hwaiting : s.tasks.IsWaiting) (hidle : s.isRestarting = false) {b : Batch Event}
    (hwatching : s.tasks.watcher? t.task = some .watching) (hnext : (s.desks t).next? = some (b, []))
    (hdue : b.time = s.now) (startable : Bool) (stamp : UInt64) :
    ∃ steps, s.Handles t (sc.judge t s.known b) startable stamp (s.run sc steps) := by
  obtain ⟨s₁, hcollect⟩ := exists_eq_collect sc hwatching b []
  have hstep₁ : s.step sc (.collect t) = some s₁ := step_collect_iff.mpr ⟨b, [], hnext, hdue, hcollect⟩
  obtain ⟨hbatch, hknown, hdesks, hnow, hrestarting, -⟩ := collect_cases hcollect
  have hitems : (s₁.desks t).items = [] := by rw [hdesks, Function.update_self]; rfl
  have hother : s₁.desks t.other = s.desks t.other := by rw [hdesks, Function.update_of_ne t.other_ne]
  by_cases hcalls : (sc.judge t s.known b).2 = true
  · obtain ⟨asking, queued, hasking, hqueued, hrestart, -⟩ := hwaiting.exists_request hwatching startable stamp
    rw [hcalls, hasking, Option.some_inj] at hbatch
    rw [hbatch] at hqueued
    set s₂ := { s₁ with tasks := queued }.setDesk t { s₁.desks t with since := s₁.now } with hs₂
    have hstep₂ : s₁.step sc (.enqueue t) = some s₂ := by
      rw [step, hqueued]
      rfl
    set s₃ : Relay :=
      { s₂ with tasks := s.tasks.request t.task startable stamp, isRestarting := true, restarts := s₂.restarts + 1 }
    have hstep₃ : s₂.step sc (.take startable stamp) = some s₃ := by
      have hrests : s₂.isRestarting = false := hrestarting.trans hidle
      have htake : s₂.tasks.restart startable stamp = some (s.tasks.request t.task startable stamp) := hrestart
      rw [step, if_neg (by rw [hrests]; exact Bool.false_ne_true), htake]
      rfl
    have hstep₄ : s₃.step sc .restarted = some { s₃ with isRestarting := false } := rfl
    have hdesks₂ : s₂.desks = Function.update s₁.desks t { s₁.desks t with since := s₁.now } := desks_setDesk ..
    refine ⟨[.collect t] ++ [.enqueue t] ++ [.take startable stamp] ++ [.restarted], ?_⟩
    rw [run_append, run_append, run_append, run_of_step hstep₁, run_of_step hstep₂, run_of_step hstep₃,
      run_of_step hstep₄]
    refine ⟨by rw [hcalls]; rfl, hknown, ?_, ?_, hnow, rfl⟩
    · show (s₂.desks t).items = []
      rw [hdesks₂, Function.update_self]
      exact hitems
    · show s₂.desks t.other = s.desks t.other
      rw [hdesks₂, Function.update_of_ne t.other_ne]
      exact hother
  · refine ⟨[.collect t], ?_⟩
    rw [run_of_step hstep₁]
    rw [Bool.not_eq_true] at hcalls
    rw [hcalls] at hbatch
    obtain ⟨-, htasks⟩ := Tasks.batch_eq_some_iff.mp hbatch
    exact ⟨by rw [htasks, hcalls]; rfl, hknown, hitems, hother, hnow, hrestarting.trans hidle⟩

/-- A watcher that was told of events at one time handles them once the window has passed. -/
theorem exists_handles_told (sc : Scenario) (hwaiting : s.tasks.IsWaiting) (hidle : s.isRestarting = false)
    {begun : Nat} {es : List Event} (hwatching : es ≠ [] → s.tasks.watcher? t.task = some .watching)
    (hitems : (s.desks t).items = es.map fun e => (begun, some e)) (hsince : (s.desks t).since = begun)
    (hnow : s.now = begun + Reaction.settleWindow) (startable : Bool) (stamp : UInt64) :
    ∃ steps, s.Handles t (sc.judge t s.known ⟨s.now, es⟩) startable stamp (s.run sc steps) := by
  by_cases hne : es = []
  · subst hne
    rw [Scenario.judge_nil]
    exact ⟨[], rfl, rfl, hitems, rfl, rfl, hidle⟩
  · have hnext := Desk.next?_of_now hne hitems hsince
    rw [← hnow] at hnext
    exact exists_handles sc hwaiting hidle (hwatching hne) hnext rfl startable stamp

/-- Who waited before a batch waits after it. -/
theorem Handles.isWaiting {judged : KnownFiles × Bool} (h : s.Handles t judged startable stamp s')
    (hwaiting : s.tasks.IsWaiting) (hwatching : judged.2 = true → s.tasks.watcher? t.task = some .watching) :
    s'.tasks.IsWaiting ∧ ∀ u, s'.tasks.watcher? u = s.tasks.watcher? u := by
  rw [h.tasks]
  split
  · next hcalls =>
    obtain ⟨-, -, -, -, -, hrequest⟩ := hwaiting.exists_request (hwatching hcalls) startable stamp
    exact hrequest
  · exact ⟨hwaiting, fun _ => rfl⟩

end Relay

/-! ## Sessions -/

namespace Session

open Relay

theorem foldl_touches (actions : List Disk.Action) (d : Disk) (ts : List Touch) :
    actions.foldl (fun p a => (p.1.actOrStay a, p.2 ++ p.1.touches a)) (d, ts) =
      (d.actAll actions, ts ++ d.touchesAll actions) := by
  induction actions generalizing d ts with
  | nil => rw [Disk.touchesAll, List.append_nil]; rfl
  | cons a actions ih =>
    rw [List.foldl_cons, ih, Disk.touchesAll, List.append_assoc]
    rfl

/-- A burst is told once all of it has been done. -/
theorem burst_eq (s : Session) (actions : List Disk.Action) :
    s.burst actions = { s with disk := s.disk.actAll actions }.notice (s.disk.touchesAll actions) := by
  have hfold := foldl_touches actions s.disk []
  rw [List.nil_append] at hfold
  exact congrArg (fun p : Disk × List Touch => { s with disk := p.1 }.notice p.2) hfold

/-- What a watcher that asks for restarts is told of touches that follow one another closely. -/
def told (s : Session) (ts : List Touch) : Asker → List Event
  | .head => s.head.elim [] fun (_, w) => (w.notice s.disk ts).2
  | .bigChanges => s.bigChanges.elim [] fun (_, w) => (w.notice s.disk ts).2

/-- The files that are known. -/
def known (s : Session) : KnownFiles := s.bigChanges.elim {} (·.1)

/-- What the watchers are told in a burst, and what they judge it by. -/
def scenario (s : Session) (ts : List Touch) (hknown : s.known.IsOrdered) : Scenario where
  timeline t := (s.told ts t).map fun e => (s.now, some e)
  head := s.head.elim ⟨[]⟩ (·.1)
  known := s.known
  disk _ := s.disk
  isTimed _ := List.pairwise_map.mpr (List.pairwise_of_forall fun _ _ => Nat.le_refl _)
  isOrdered := hknown

/-- The watchers at the beginning of a burst. -/
def relay (s : Session) (ts : List Touch) (tasks : Tasks) : Relay where
  tasks
  known := s.known
  desks t := { items := (s.told ts t).map fun e => (s.now, some e), since := s.now }
  now := s.now

/-- A session whose tasks wait for something to happen. -/
structure IsWaiting (s : Session) (tasks : Tasks) : Prop where
  serves : s.daemon.tasks = some tasks
  waiting : tasks.IsWaiting
  watching : ∀ t : Asker, s.hasWatcher t.task = true → tasks.watcher? t.task = some .watching
  known : s.known.IsOrdered

variable {s : Session} {ts : List Touch} {tasks : Tasks}

/-- A session waits once its daemon has launched its tasks, with a server or without. -/
theorem isWaiting_of_begin {startable : Bool} {stamp : UInt64} {server : Option ServiceState}
    (h : s.daemon.tasks = some { Tasks.begin s.hasWatcher startable stamp with server }) (hknown : s.known.IsOrdered) :
    s.IsWaiting { Tasks.begin s.hasWatcher startable stamp with server } where
  serves := h
  waiting :=
    have hbegin := Tasks.isWaiting_begin s.hasWatcher startable stamp
    ⟨hbegin.running, hbegin.queued, hbegin.watching⟩
  watching t ht := by
    have hmem : t.task ∈ watcherNames := by cases t <;> decide
    exact Tasks.watcher?_begin_of_has hmem ht startable stamp
  known := hknown

theorem hasWatcher_of_told {t : Asker} (h : s.told ts t ≠ []) : s.hasWatcher t.task = true := by
  cases t with
  | head =>
    cases hhead : s.head with
    | none => rw [told, hhead] at h; exact absurd rfl h
    | some watched => rw [Asker.task, hasWatcher, hhead]; rfl
  | bigChanges =>
    cases hbig : s.bigChanges with
    | none => rw [told, hbig] at h; exact absurd rfl h
    | some watched => rw [Asker.task, hasWatcher, hbig]; rfl

/-- What a session makes of what a watcher is told. -/
structure Handles (s : Session) (ts : List Touch) (t : Asker) (tasks : Tasks) (judged : KnownFiles × Bool)
    (s' : Session) : Prop where
  tasks : s'.daemon.tasks =
    some (if judged.2 then tasks.request t.task (canLaunch s.disk s.env s.config) s.stamp else tasks)
  known : s'.known = judged.1
  told : s'.told ts t.other = s.told ts t.other
  hasWatcher : s'.hasWatcher = s.hasWatcher
  startable : canLaunch s'.disk s'.env s'.config = canLaunch s.disk s.env s.config
  disk : s'.disk = s.disk
  now : s'.now = s.now

theorem handles_noticeHead (ts : List Touch) (htasks : s.daemon.tasks = some tasks) (hknown : s.known.IsOrdered)
    (time : Nat) :
    s.Handles ts .head tasks ((s.scenario ts hknown).judge .head s.known ⟨time, s.told ts .head⟩)
      (s.noticeHead ts) := by
  cases hhead : s.head with
  | none =>
    have htold : s.told ts .head = [] := by rw [told, hhead]; rfl
    rw [noticeHead, hhead, htold]
    exact ⟨htasks, rfl, rfl, rfl, rfl, rfl, rfl⟩
  | some watched =>
    obtain ⟨head, w⟩ := watched
    have htold : s.told ts .head = (w.notice s.disk ts).2 := by rw [told, hhead]; rfl
    have hwatcher : ({ s with head := some (head, (w.notice s.disk ts).1) } : Session).hasWatcher = s.hasWatcher := by
      funext t
      cases t <;> simp [hasWatcher, hhead]
    have hverdict : ((s.scenario ts hknown).judge .head s.known ⟨time, s.told ts .head⟩) =
        (s.known, Reaction.movesHead head (w.notice s.disk ts).2) := by
      rw [htold, Scenario.judge, scenario, hhead]
      rfl
    rw [hverdict]
    simp only [noticeHead, hhead]
    by_cases hne : (w.notice s.disk ts).2 = []
    · rw [hne, Reaction.batchesAt_nil]
      exact ⟨htasks, rfl, rfl, hwatcher, rfl, rfl, rfl⟩
    · rw [Reaction.batchesAt_of_ne_nil _ hne]
      by_cases hmoves : Reaction.movesHead head (w.notice s.disk ts).2 = true
      · rw [List.filter_cons_of_pos hmoves, hmoves]
        refine ⟨?_, rfl, rfl, hwatcher, rfl, rfl, rfl⟩
        show s.daemon.tasks.map _ = _
        rw [htasks]
        rfl
      · rw [List.filter_cons_of_neg hmoves, Bool.eq_false_iff.mpr hmoves]
        exact ⟨htasks, rfl, rfl, hwatcher, rfl, rfl, rfl⟩

theorem handles_noticeBigChanges (ts : List Touch) (htasks : s.daemon.tasks = some tasks) (hknown : s.known.IsOrdered)
    (time : Nat) :
    s.Handles ts .bigChanges tasks
      ((s.scenario ts hknown).judge .bigChanges s.known ⟨time, s.told ts .bigChanges⟩) (s.noticeBigChanges ts) := by
  cases hbig : s.bigChanges with
  | none =>
    have htold : s.told ts .bigChanges = [] := by rw [told, hbig]; rfl
    rw [noticeBigChanges, hbig, htold]
    exact ⟨htasks, rfl, rfl, rfl, rfl, rfl, rfl⟩
  | some watched =>
    obtain ⟨known, w⟩ := watched
    have htold : s.told ts .bigChanges = (w.notice s.disk ts).2 := by rw [told, hbig]; rfl
    have hwatcher (k : KnownFiles) :
        ({ s with bigChanges := some (k, (w.notice s.disk ts).1) } : Session).hasWatcher = s.hasWatcher := by
      funext t
      cases t <;> simp [hasWatcher, hbig]
    have hverdict : (s.scenario ts hknown).judge .bigChanges s.known ⟨time, s.told ts .bigChanges⟩ =
        Reaction.reconcile s.disk known (w.notice s.disk ts).2 := by
      rw [htold, Scenario.judge, Session.known, hbig]
      rfl
    rw [hverdict]
    simp only [noticeBigChanges, hbig]
    by_cases hne : (w.notice s.disk ts).2 = []
    · rw [hne, Reaction.batchesAt_nil]
      exact ⟨htasks, rfl, rfl, hwatcher known, rfl, rfl, rfl⟩
    · rw [Reaction.batchesAt_of_ne_nil _ hne]
      cases hjudged : Reaction.reconcile s.disk known (w.notice s.disk ts).2 with
      | mk after lost =>
        rw [Reaction.reconcileAll, hjudged]
        cases lost with
        | true =>
          refine ⟨?_, rfl, rfl, hwatcher after, rfl, rfl, rfl⟩
          show s.daemon.tasks.map _ = _
          rw [htasks]
          rfl
        | false => exact ⟨htasks, rfl, rfl, hwatcher after, rfl, rfl, rfl⟩

/-- Time passes until the window of a burst has run out. -/
theorem step_pass_relay (ts : List Touch) (hwaiting : tasks.IsWaiting) (hknown : s.known.IsOrdered) :
    (s.relay ts tasks).step (s.scenario ts hknown) (.pass (s.now + Reaction.settleWindow)) =
      some ((s.relay ts tasks).pass (s.now + Reaction.settleWindow)) := by
  refine step_pass_iff.mpr ⟨⟨Nat.le_add_right .., fun t => ?_⟩, rfl⟩
  refine isIdleUntil_of_next? (isAsking_of_isWaiting hwaiting t) fun b left hnext => ?_
  by_cases hne : s.told ts t = []
  · rw [Desk.next?_eq_none_iff.mpr (List.map_eq_nil_iff.mpr hne)] at hnext
    cases hnext
  · rw [Desk.next?_of_now hne rfl rfl] at hnext
    cases hnext
    exact Nat.le_refl _

/-- **A session after a burst is what its watchers and its supervisor settle at**, and waits again. -/
theorem exists_settled_watchers (h : s.IsWaiting tasks) (ts : List Touch) :
    ∃ steps,
      let after := (s.noticeHead ts).noticeBigChanges ts
      let r := (s.relay ts tasks).run (s.scenario ts h.known) steps
      r.IsSettled ∧ after.IsWaiting r.tasks ∧ after.known = r.known := by
  set sc := s.scenario ts h.known
  set later := s.now + Reaction.settleWindow
  set startable := canLaunch s.disk s.env s.config
  have hwatching {t : Asker} (hne : s.told ts t ≠ []) : tasks.watcher? t.task = some .watching :=
    h.watching t (hasWatcher_of_told hne)
  have hcalls {t : Asker} {k : KnownFiles} (hjudged : (sc.judge t k ⟨later, s.told ts t⟩).2 = true) :
      tasks.watcher? t.task = some .watching := by
    refine hwatching fun hnil => ?_
    rw [hnil, Scenario.judge_nil] at hjudged
    cases hjudged
  have hpass := step_pass_relay ts h.waiting h.known
  -- the head watcher handles its batch
  obtain ⟨first, hfirst⟩ := exists_handles_told sc (s := (s.relay ts tasks).pass later) (t := .head)
    h.waiting rfl hwatching rfl rfl rfl startable s.stamp
  set r₁ := ((s.relay ts tasks).pass later).run sc first
  obtain ⟨hwaiting₁, hsame₁⟩ := hfirst.isWaiting h.waiting hcalls
  -- then the watcher for big changes
  obtain ⟨second, hsecond⟩ := exists_handles_told sc (s := r₁) (t := .bigChanges) hwaiting₁ hfirst.idle
    (fun hne => (hsame₁ _).trans (hwatching hne)) (congrArg Desk.items hfirst.other)
    (congrArg Desk.since hfirst.other) hfirst.now startable s.stamp
  set r₂ := r₁.run sc second
  obtain ⟨hwaiting₂, hsame₂⟩ := hsecond.isWaiting hwaiting₁ fun hjudged => by
    rw [hsame₁]
    rw [hfirst.known, hfirst.now] at hjudged
    exact hcalls hjudged
  -- the session does the same
  have hhead := handles_noticeHead ts h.serves h.known later
  have hknown₁ : (s.noticeHead ts).known.IsOrdered := hhead.known ▸ h.known
  have htasks₁ : (s.noticeHead ts).daemon.tasks = some r₁.tasks := hhead.tasks.trans (congrArg some hfirst.tasks.symm)
  have hbig := handles_noticeBigChanges ts htasks₁ hknown₁ later
  have hjudged : ((s.noticeHead ts).scenario ts hknown₁).judge .bigChanges (s.noticeHead ts).known
      ⟨later, (s.noticeHead ts).told ts .bigChanges⟩ =
        sc.judge .bigChanges r₁.known ⟨r₁.now, s.told ts .bigChanges⟩ := by
    have htold : (s.noticeHead ts).told ts .bigChanges = s.told ts .bigChanges := hhead.told
    show Reaction.reconcile (s.noticeHead ts).disk _ _ = Reaction.reconcile s.disk _ _
    rw [hhead.disk, hhead.known, hfirst.known, htold]
    rfl
  rw [hjudged] at hbig
  have hknown₂ : ((s.noticeHead ts).noticeBigChanges ts).known = r₂.known := hbig.known.trans hsecond.known.symm
  have htasks₂ : ((s.noticeHead ts).noticeBigChanges ts).daemon.tasks = some r₂.tasks := by
    rw [hbig.tasks, hsecond.tasks, hhead.startable, stamp, hhead.now]
    rfl
  refine ⟨[.pass later] ++ first ++ second, ?_⟩
  rw [run_append, run_append, run_of_step hpass]
  refine ⟨⟨Asker.forall_iff.mpr ⟨?_, hsecond.items⟩, isAsking_of_isWaiting hwaiting₂, hwaiting₂.queued, hsecond.idle⟩,
    ⟨htasks₂, hwaiting₂, fun t ht => ?_, ?_⟩, hknown₂⟩
  · exact (congrArg Desk.items hsecond.other).trans hfirst.items
  · rw [hbig.hasWatcher, hhead.hasWatcher] at ht
    rw [hsame₂, hsame₁]
    exact h.watching t ht
  · rw [hbig.known, hfirst.known]
    exact Reaction.isOrdered_reconcile h.known s.disk _

end Session

end Daemon

end WarmCheck

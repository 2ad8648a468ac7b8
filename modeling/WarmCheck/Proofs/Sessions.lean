import WarmCheck.Proofs.Bursts
import WarmCheck.Proofs.Changes
import WarmCheck.Proofs.Exits

/-!
# Sessions

A daemon that comes to serve has all its tasks waiting, and so it has after each burst of changes. What it makes of a
burst is therefore always what its watchers and its supervisor settle at. All the while, the directories of the disk
have entries with names that entries can have, each of its own.

* `Instance.IsStarting`: the tasks of a daemon on its way to serve.
* `Session.start_cases`: what a start comes to; `Session.isWaiting_start`: a daemon that serves waits.
* **`Session.exists_settled_burst_of_start`**: what a daemon makes of any burst after it has been started.
* **`Session.isProper_disk`**: what becomes of the disk.
-/

namespace WarmCheck.Daemon

/-! ## Starting -/

/-- Whether a daemon has not come further than to launch its tasks, or is turned away before. -/
def Stage.isBeginning : Stage → Bool
  | prepare | probe | connect | clearEndpoint | clearMarker | openMarker | writeMarker | launch
  | ended (.refused _) => true
  | _ => false

namespace Instance

variable {w : Workspace} {launch : Tasks} {i : Instance}

/-- A daemon on its way to serve has the tasks that it has launched, and the server once it serves; or it has not come
to launch them, or is turned away. -/
def IsStarting (launch : Tasks) (i : Instance) : Prop :=
  match i.stage with
  | .prepare | .probe | .connect | .clearEndpoint | .clearMarker | .openMarker | .writeMarker | .launch => True
  | .bind | .listen | .protect => i.tasks = some launch
  | .serve => i.tasks = some { launch with server := some .running }
  | .endTasks ending | .releaseEndpoint ending | .readMarker ending | .releaseMarker ending | .ended ending =>
    ∃ failure, ending = .refused failure

theorem IsStarting.step (h : i.IsStarting launch) (a : Artifacts) : (i.step w launch a).2.IsStarting launch := by
  obtain ⟨pid, stage, tasks, isListening⟩ := i
  cases stage with
  | clearEndpoint | clearMarker | writeMarker => trivial
  | launch => rfl
  | listen | serve | releaseEndpoint | releaseMarker | ended => exact h
  | prepare | openMarker =>
    simp only [Instance.step]
    split
    · trivial
    · exact ⟨_, rfl⟩
  | connect =>
    simp only [Instance.step]
    split
    · exact ⟨_, rfl⟩
    · trivial
  | probe =>
    simp only [Instance.step]
    split <;> trivial
  | bind =>
    simp only [Instance.step]
    split
    · exact h
    · exact ⟨_, rfl⟩
  | protect =>
    have htasks : tasks = some launch := h
    simp only [Instance.step]
    split
    · exact congrArg (Option.map _) htasks
    · exact ⟨_, rfl⟩
  | readMarker =>
    simp only [Instance.step]
    split <;> exact h
  | endTasks ending =>
    obtain ⟨failure, rfl⟩ : ∃ failure, ending = .refused failure := h
    exact ⟨failure, rfl⟩

theorem isBeginning_step (h : i.stage.isBeginning = true) (hat : i.stage ≠ .launch) (a : Artifacts) :
    (i.step w launch a).2.stage.isBeginning = true := by
  obtain ⟨pid, stage, tasks, isListening⟩ := i
  cases stage with
  | clearEndpoint | clearMarker | writeMarker => rfl
  | launch => exact absurd rfl hat
  | prepare | connect | openMarker | probe =>
    simp only [Instance.step]
    split <;> rfl
  | ended => exact h
  | bind | listen | protect | serve | endTasks | releaseEndpoint | readMarker | releaseMarker => cases h

theorem isStarting_of_isBeginning (h : i.stage.isBeginning = true) (launch : Tasks) : i.IsStarting launch := by
  obtain ⟨pid, stage, tasks, isListening⟩ := i
  cases stage with
  | prepare | probe | connect | clearEndpoint | clearMarker | openMarker | writeMarker | launch => trivial
  | ended ending =>
    cases ending with
    | refused failure => exact ⟨failure, rfl⟩
    | stopped => cases h
  | bind | listen | protect | serve | endTasks | releaseEndpoint | readMarker | releaseMarker => cases h

end Instance

namespace Session

variable {s : Session} {ts : List Touch} {tasks : Tasks}

theorem advance_preserves {P : Instance → Prop} {pauses : Stage → Bool}
    (hstep : ∀ a i, pauses i.stage = false → P i → P (i.step s.workspace s.launched a).2) (h : P s.daemon) :
    P (s.advance pauses).daemon :=
  Instance.steps_preserves _ _ _ hstep h _

theorem hasWatcher_advance (s : Session) (pauses : Stage → Bool) : (s.advance pauses).hasWatcher = s.hasWatcher := rfl

theorem known_advance (s : Session) (pauses : Stage → Bool) : (s.advance pauses).known = s.known := rfl

theorem isOrdered_watch (s : Session) : s.watch.known.IsOrdered := by
  rw [known]
  cases hbig : s.watch.bigChanges with
  | none => exact List.Pairwise.nil
  | some watched =>
    obtain ⟨known, watcher⟩ := watched
    obtain ⟨dir, -, hdir⟩ := Option.bind_eq_some_iff.mp hbig
    obtain ⟨place, -, hplace⟩ := Option.bind_eq_some_iff.mp hdir
    obtain ⟨begun, -, hbegun⟩ := Option.bind_eq_some_iff.mp hplace
    obtain ⟨found, hfound, hsome⟩ := Option.bind_eq_some_iff.mp hbegun
    cases hsome
    cases hscan : KnownFiles.scan s.disk place with
    | error failure => rw [hscan] at hfound; cases hfound
    | ok k => rw [hscan] at hfound; cases hfound; exact KnownFiles.isOrdered_scan hscan

/-- A daemon that has got its cache directory, once it serves or is over. -/
def launching (made : Disk) (env : Environment) (c : Config) (pid now : Nat) : Session :=
  let first : Session := { disk := made, env, config := c, daemon := { pid }, now }
  (first.advance (· = .launch)).watch.advance fun _ => false

theorem start_cases (d : Disk) (env : Environment) (c : Config) (pid now : Nat) :
    (∃ failure, start d env c pid now = (d, .error failure)) ∨
      ∃ made, d.createDirs (Workspace.of c.root env).cache = .ok made ∧
        (start d env c pid now).1 = (launching made env c pid now).disk ∧
        ∀ s, (start d env c pid now).2 = .ok s →
          (∀ failure, (launching made env c pid now).daemon.stage ≠ .ended (.refused failure)) ∧
            ∃ own, s = { launching made env c pid now with pending := own } := by
  rw [start, withCache]
  cases hcache : d.createDirs (Workspace.of c.root env).cache with
  | error fault =>
    simp only [workspace, hcache]
    exact .inl ⟨_, rfl⟩
  | ok made =>
    simp only [workspace, hcache, launching]
    refine .inr ⟨made, rfl, ?_⟩
    generalize advance (watch _) _ = last
    split
    · exact ⟨rfl, fun s hs => by cases hs⟩
    · next hserves => exact ⟨rfl, fun s hs => ⟨hserves, _, (Except.ok.inj hs).symm⟩⟩

/-- A daemon that serves waits. -/
theorem isWaiting_start {d : Disk} {env : Environment} {c : Config} {pid now : Nat}
    (h : (start d env c pid now).2 = .ok s) : ∃ tasks, s.IsWaiting tasks := by
  rcases start_cases d env c pid now with ⟨failure, hstart⟩ | ⟨made, -, -, hserves⟩
  · rw [hstart] at h
    cases h
  · obtain ⟨hnot, own, rfl⟩ := hserves s h
    set first : Session := { disk := made, env, config := c, daemon := { pid }, now }
    set second := (first.advance (· = .launch)).watch
    set last := launching made env c pid now
    -- the tasks are launched with the watchers of the disk that the marker has been written to
    have hbeginning : (first.advance (· = .launch)).daemon.stage.isBeginning = true :=
      advance_preserves (P := (·.stage.isBeginning = true))
        (fun a i hgoes hi => Instance.isBeginning_step hi (of_decide_eq_false hgoes) a) rfl
    have hstarting : last.daemon.IsStarting second.launched :=
      advance_preserves (fun a i _ hi => hi.step a) (Instance.isStarting_of_isBeginning hbeginning _)
    have hrest : last.daemon.stage.isRest = true := Instance.isRest_runTo _ _ _ _
    have hwatcher : last.hasWatcher = second.hasWatcher := hasWatcher_advance second _
    have hknown : last.known.IsOrdered := (known_advance second _).symm ▸ isOrdered_watch _
    clear_value last
    cases hstage : last.daemon.stage with
    | serve =>
      rw [Instance.IsStarting, hstage, launched, ← hwatcher] at hstarting
      exact ⟨_, isWaiting_of_begin hstarting hknown⟩
    | ended ending =>
      rw [Instance.IsStarting, hstage] at hstarting
      obtain ⟨failure, rfl⟩ := hstarting
      exact absurd hstage (hnot failure)
    | _ => rw [hstage] at hrest; cases hrest

/-! ## Bursts -/

theorem IsWaiting.of_eq {s' : Session} (h : s.IsWaiting tasks) (hdaemon : s'.daemon = s.daemon)
    (hwatcher : s'.hasWatcher = s.hasWatcher) (hknown : s'.known = s.known) : s'.IsWaiting tasks where
  serves := hdaemon ▸ h.serves
  waiting := h.waiting
  watching := hwatcher ▸ h.watching
  known := hknown ▸ h.known

/-- What the watcher of the routes does is no matter of the other watchers. -/
theorem exists_noticeRoutes (s : Session) (ts : List Touch) : ∃ routes debouncer,
    s.noticeRoutes ts = { s with routes, debouncer } ∧ routes.isSome = s.routes.isSome := by
  rw [noticeRoutes]
  cases hroutes : s.routes with
  | none => exact ⟨s.routes, s.debouncer, rfl, congrArg Option.isSome hroutes⟩
  | some w => exact ⟨_, _, rfl, rfl⟩

/-- **What a daemon that waits makes of a burst**, with what it has done itself before, is what its watchers and its
supervisor settle at, and it waits again. -/
theorem exists_settled_notice (h : s.IsWaiting tasks) (ts : List Touch) :
    ∃ steps,
      let r := (s.relay (s.pending ++ ts) tasks).run (s.scenario (s.pending ++ ts) h.known) steps
      r.IsSettled ∧ (s.notice ts).IsWaiting r.tasks ∧ (s.notice ts).known = r.known := by
  obtain ⟨routes, debouncer, hroutes, hsome⟩ := exists_noticeRoutes { s with pending := [] } (s.pending ++ ts)
  set told : Session := { s with pending := [], routes, debouncer }
  have hwatcher : told.hasWatcher = s.hasWatcher := by
    funext t
    cases t with
    | routeWatcher => exact hsome
    | headWatcher | bigChangesWatcher | statusServer | supervisor => rfl
  have htold : told.IsWaiting tasks := h.of_eq rfl hwatcher rfl
  obtain ⟨steps, hsettled, hwaiting, hknown⟩ := exists_settled_watchers htold (s.pending ++ ts)
  have hnotice : s.notice ts = ((told.noticeHead (s.pending ++ ts)).noticeBigChanges (s.pending ++ ts)).settle := by
    rw [notice, hroutes]
  rw [hnotice]
  exact ⟨steps, hsettled, hwaiting.of_eq rfl rfl rfl, hknown⟩

/-- What a daemon that waits makes of a burst of actions. -/
theorem exists_settled_burst (h : s.IsWaiting tasks) (actions : List Disk.Action) :
    ∃ steps,
      let told : Session := { s with disk := s.disk.actAll actions }
      let ts := s.pending ++ s.disk.touchesAll actions
      let r := (told.relay ts tasks).run (told.scenario ts h.known) steps
      r.IsSettled ∧ (s.burst actions).IsWaiting r.tasks ∧ (s.burst actions).known = r.known := by
  have htold : ({ s with disk := s.disk.actAll actions } : Session).IsWaiting tasks := h.of_eq rfl rfl rfl
  rw [burst_eq]
  exact exists_settled_notice htold (s.disk.touchesAll actions)

/-- A daemon that waits does so after any bursts. -/
theorem IsWaiting.exists_bursts (h : s.IsWaiting tasks) (bursts : List (List Disk.Action)) :
    ∃ tasks', (bursts.foldl burst s).IsWaiting tasks' := by
  induction bursts generalizing s tasks with
  | nil => exact ⟨tasks, h⟩
  | cons actions bursts ih =>
    obtain ⟨steps, -, hwaiting, -⟩ := exists_settled_burst h actions
    exact ih hwaiting

/-- **What a daemon makes of any burst** after it has been started, and after any other bursts, is what its watchers
and its supervisor settle at when they are told of all that has been done to the disk. -/
theorem exists_settled_burst_of_start {d : Disk} {env : Environment} {c : Config} {pid now : Nat}
    (h : (start d env c pid now).2 = .ok s) (bursts : List (List Disk.Action)) :
    let before := bursts.foldl burst s
    ∃ (tasks : Tasks) (hknown : before.known.IsOrdered), before.daemon.tasks = some tasks ∧
      ∀ actions, ∃ steps,
        let told : Session := { before with disk := before.disk.actAll actions }
        let ts := before.pending ++ before.disk.touchesAll actions
        let r := (told.relay ts tasks).run (told.scenario ts hknown) steps
        r.IsSettled ∧ (before.burst actions).daemon.tasks = some r.tasks ∧ (before.burst actions).known = r.known := by
  intro before
  obtain ⟨tasks, hstart⟩ := isWaiting_start h
  obtain ⟨tasks', hbefore⟩ := hstart.exists_bursts bursts
  refine ⟨tasks', hbefore.known, hbefore.serves, fun actions => ?_⟩
  obtain ⟨steps, hsettled, hwaiting, hknown⟩ := exists_settled_burst hbefore actions
  exact ⟨steps, hsettled, hwaiting.serves, hknown⟩

/-! ## The disk -/

theorem disk_foldl_callRestart {α : Type} (calls : List α) (t : TaskName) (s : Session) :
    (calls.foldl (fun s _ => s.callRestart t) s).disk = s.disk := by
  induction calls generalizing s with
  | nil => rfl
  | cons call calls ih => exact ih (s.callRestart t)

/-- What a daemon makes of changes does not change the disk. -/
theorem disk_notice (s : Session) (ts : List Touch) : (s.notice ts).disk = s.disk := by
  have hroutes (s : Session) (ts : List Touch) : (s.noticeRoutes ts).disk = s.disk := by
    rw [noticeRoutes]
    split <;> rfl
  have hhead (s : Session) (ts : List Touch) : (s.noticeHead ts).disk = s.disk := by
    rw [noticeHead]
    split
    · rfl
    · exact disk_foldl_callRestart _ _ _
  have hbig (s : Session) (ts : List Touch) : (s.noticeBigChanges ts).disk = s.disk := by
    rw [noticeBigChanges]
    split
    · rfl
    · exact disk_foldl_callRestart _ _ _
  exact (hbig _ _).trans ((hhead _ _).trans (hroutes _ _))

theorem disk_burst (s : Session) (actions : List Disk.Action) : (s.burst actions).disk = s.disk.actAll actions := by
  rw [burst_eq, disk_notice]

theorem isProper_advance (h : s.disk.top.isProper = true) (pauses : Stage → Bool) :
    (s.advance pauses).disk.top.isProper = true :=
  ProperDisk.isProper_storeArtifacts ⟨s.disk, h⟩ _ _ _

theorem isProper_watch (h : s.disk.top.isProper = true) : s.watch.disk.top.isProper = true := h

theorem isProper_bursts (h : s.disk.top.isProper = true) (bursts : List (List Disk.Action)) :
    (bursts.foldl burst s).disk.top.isProper = true := by
  induction bursts generalizing s with
  | nil => exact h
  | cons actions bursts ih =>
    refine ih ?_
    rw [disk_burst]
    exact ProperDisk.isProper_actAll ⟨s.disk, h⟩ actions

theorem isProper_stop (h : s.disk.top.isProper = true) : s.stop.disk.top.isProper = true := by
  refine isProper_advance ?_ fun _ => false
  exact h

/-- The disk after a start, with a daemon that serves or without. -/
theorem isProper_start (d : ProperDisk) (env : Environment) (c : Config) (pid now : Nat) :
    (start d env c pid now).1.top.isProper = true ∧
      ∀ s, (start d env c pid now).2 = .ok s → s.disk.top.isProper = true := by
  rcases start_cases d env c pid now with ⟨failure, hstart⟩ | ⟨made, hcache, hdisk, hserves⟩
  · rw [hstart]
    exact ⟨d.isProper, fun s hs => by cases hs⟩
  · have hmade : made.top.isProper = true := d.keepsProper_createChain _ made hcache
    have hlast : (launching made env c pid now).disk.top.isProper = true :=
      isProper_advance (isProper_watch (isProper_advance hmade _)) _
    refine ⟨hdisk ▸ hlast, fun s hs => ?_⟩
    obtain ⟨-, own, rfl⟩ := hserves s hs
    exact hlast

/-- **A daemon and the people around it keep the entries of a disk proper**: when it starts, whether it comes to serve
or not; in any bursts of changes while it serves; and when it ends. -/
theorem isProper_disk (d : ProperDisk) (env : Environment) (c : Config) (pid now : Nat) :
    (start d env c pid now).1.top.isProper = true ∧
      ∀ s, (start d env c pid now).2 = .ok s → ∀ bursts : List (List Disk.Action),
        let after := bursts.foldl burst s
        after.disk.top.isProper = true ∧ after.stop.disk.top.isProper = true := by
  obtain ⟨hstart, hserves⟩ := isProper_start d env c pid now
  refine ⟨hstart, fun s hs bursts => ?_⟩
  have hafter : (bursts.foldl burst s).disk.top.isProper = true := isProper_bursts (hserves s hs) bursts
  exact ⟨hafter, isProper_stop hafter⟩

end Session

end WarmCheck.Daemon

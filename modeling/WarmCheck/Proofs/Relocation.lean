import WarmCheck.Proofs.Delays
import WarmCheck.Proofs.Joins
import WarmCheck.Watch.Routes

/-!
# Moving a workspace

The route watcher sees the whole path of a change, with the directories that the workspace is in. If the content of
one of these never matters, nothing in the workspace does; else it makes no difference where the workspace lies.

* `Route.concerns_join`: when a path below a root matters.
* `Routes.run_congr`: sync runs depend only on which events ask for them, and when.
* `Routes.HeedsOwn`, `Routes.MovesTo`: the watcher goes by what is below the root; two roots make no difference to it.
* **`Routes.heedsOwn_and_movesTo_iff`**: both hold exactly where no directory above gets in the way.
* `Routes.heeds_directories_above`: a workspace in a directory of dependencies.
-/

namespace WarmCheck

/-- Whether a path, seen from another one, has parts of its own. -/
structure Path.IsBelow (p : Path) : Prop where
  isAbsolute : p.isAbsolute = false
  rest : p.rest ≠ []

instance (p : Path) : Decidable p.IsBelow :=
  decidable_of_iff (p.isAbsolute = false ∧ p.rest ≠ []) ⟨fun ⟨h, h'⟩ => ⟨h, h'⟩, fun ⟨h, h'⟩ => ⟨h, h'⟩⟩

/-! ## Paths that matter -/

namespace Route

/-- Whether a directory whose content never matters is on a path. -/
def IsSetAside (p : Path) : Prop := ∃ name ∈ ignoredNames, Component.name name ∈ p.components

instance (p : Path) : Decidable (IsSetAside p) := inferInstanceAs (Decidable (∃ _ ∈ _, _))

variable {root p : Path}

theorem isIgnored_iff : isIgnored p = true ↔ IsSetAside p := by
  rw [isIgnored, List.any_eq_true]
  constructor
  · rintro ⟨c, hc, h⟩
    cases c with
    | name bs => exact ⟨bs, List.contains_iff_mem.mp h, hc⟩
    | root | here | parent => cases h
  · rintro ⟨name, hname, h⟩
    exact ⟨_, h, List.contains_iff_mem.mpr hname⟩

theorem isIgnored_eq_rest (p : Path) : isIgnored p = p.rest.any isIgnoredComponent := by
  rw [isIgnored, Path.components_eq, List.any_append]
  cases p.parts.1 <;> rfl

theorem isIgnored_join (hroot : root.bytes ≠ []) (hp : p.isAbsolute = false) :
    isIgnored (root.join p) = (isIgnored root || isIgnored p) := by
  rw [isIgnored, Path.components_join hroot hp, List.any_append, ← isIgnored_eq_rest]
  rfl

theorem isRouteFile_join (hroot : root.bytes ≠ []) (hp : p.IsBelow) : isRouteFile (root.join p) = isRouteFile p := by
  rw [isRouteFile, Path.fileName?_join hroot hp.isAbsolute hp.rest]
  rfl

/-- **A path below a root matters** if it does by itself, and the root is in no directory whose content never does. -/
theorem concerns_join (hroot : root.bytes ≠ []) (hp : p.IsBelow) :
    concerns (root.join p) = (!isIgnored root && concerns p) := by
  rw [concerns, isIgnored_join hroot hp.isAbsolute, isRouteFile_join hroot hp, Bool.not_or, Bool.and_assoc]
  rfl

end Route

namespace Watch

/-- What is told of an event whose paths are seen from a root. -/
def Event.under (root : Path) (e : Event) : Event := { e with paths := e.paths.map root.join }

namespace Routes

variable {root root' : Path} {e : Event}

theorem wantsSync_under (hroot : root.isAbsolute = true) (hbelow : ∀ p ∈ e.paths, p.IsBelow) :
    Reaction.wantsSync (e.under root) = (!Route.isIgnored root && Reaction.wantsSync e) := by
  have hpaths : (e.under root).paths.any Route.concerns = (!Route.isIgnored root && e.paths.any Route.concerns) := by
    rw [Event.under, List.any_map, List.and_any_distrib_left, Bool.eq_iff_iff, List.any_eq_true, List.any_eq_true]
    refine exists_congr fun p => and_congr_right fun hp => ?_
    rw [Function.comp_apply, Route.concerns_join (Path.ne_nil_of_isAbsolute hroot) (hbelow p hp)]
  rw [Reaction.wantsSync, hpaths, Bool.and_left_comm]
  rfl

theorem wantsSync_iff (h : e.isChange = true) :
    Reaction.wantsSync e = true ↔ ∃ p ∈ e.paths, Route.isRouteFile p = true ∧ ¬Route.IsSetAside p := by
  rw [Reaction.wantsSync, h, Bool.true_and, List.any_eq_true]
  refine exists_congr fun p => and_congr_right fun _ => ?_
  rw [Route.concerns, Bool.and_eq_true, Bool.not_eq_true', ← Bool.not_eq_true, Route.isIgnored_iff, and_comm]

/-! ## Runs -/

/-- Sync runs depend only on which events ask for them, and when. -/
theorem run_congr (sync : Nat → Task) (close : Nat) {items items' : List (Nat × Option Event)}
    (h : items.map (fun i => (i.1, asks i.2)) = items'.map fun i => (i.1, asks i.2)) (d : Debouncer) :
    run sync close d items = run sync close d items' := by
  induction items generalizing items' d with
  | nil =>
    rw [List.map_nil, eq_comm, List.map_eq_nil_iff] at h
    rw [h]
  | cons i items ih =>
    cases items' with
    | nil => cases h
    | cons i' items' =>
      obtain ⟨now, item⟩ := i
      obtain ⟨now', item'⟩ := i'
      obtain ⟨hhead, hrest⟩ := List.cons.inj h
      obtain ⟨rfl, hasks⟩ := Prod.mk.inj hhead
      simp only [run, take, show asks item = asks item' from hasks, ih hrest]

theorem advance_of_idle {d : Debouncer} (hwaits : d.delays = []) (hruns : d.running = []) (t : Nat) :
    d.advance t = (d, []) := by
  obtain ⟨delay, pending, fired, delays, running, nextJob⟩ := d
  cases hwaits
  cases hruns
  exact Prod.ext rfl List.mergeSort_nil

theorem run_of_not_asks (sync : Nat → Task) (close : Nat) {items : List (Nat × Option Event)}
    (h : ∀ i ∈ items, asks i.2 = false) {d : Debouncer} (hwaits : d.delays = []) (hruns : d.running = []) :
    (run sync close d items).2 = [] := by
  induction items with
  | nil => rw [run, advance_of_idle hwaits hruns]
  | cons i items ih =>
    obtain ⟨hhead, hrest⟩ := List.forall_mem_cons.mp h
    simp only [run, advance_of_idle hwaits hruns, take, hhead, Bool.false_eq_true, if_false, ih hrest, List.nil_append]

/-! ## Moving -/

/-- What the watcher is told of events, seen from a root, and of errors. -/
def told (root : Path) (items : List (Nat × Option Event)) : List (Nat × Option Event) :=
  items.map fun (now, item) => (now, item.map (·.under root))

/-- The times at which the sync tool is run in a workspace at a root. -/
def syncTimes (root : Path) (sync : Nat → Task) (close : Nat) (items : List (Nat × Option Event)) : List Nat :=
  ((run sync close { delay := Reaction.routeDelay } (told root items)).2.filter (·.isStart)).map (·.time)

/-- All events are about what is below the root. -/
def AreBelow (items : List (Nat × Option Event)) : Prop := ∀ i ∈ items, ∀ e ∈ i.2, ∀ p ∈ e.paths, p.IsBelow

/-- An event of more than access about what is below the root asks for a sync run exactly if it is about a route file
to which no directory that never matters leads from the root. -/
def HeedsOwn (root : Path) : Prop :=
  ∀ e : Event, e.isChange = true → (∀ p ∈ e.paths, p.IsBelow) →
    (Reaction.wantsSync (e.under root) = true ↔
      ∃ p ∈ e.paths, Route.isRouteFile p = true ∧ ¬Route.IsSetAside p)

/-- The same happens at the same times below two roots. -/
def MovesTo (root root' : Path) : Prop :=
  ∀ sync close items, AreBelow items → syncTimes root sync close items = syncTimes root' sync close items

theorem asks_told (hroot : root.isAbsolute = true) {items : List (Nat × Option Event)} (h : AreBelow items) :
    (told root items).map (fun i => (i.1, asks i.2)) =
      items.map fun i => (i.1, !Route.isIgnored root && asks i.2) := by
  rw [told, List.map_map]
  refine List.map_congr_left fun i hi => Prod.ext rfl ?_
  obtain ⟨now, item⟩ := i
  cases item with
  | none => exact (Bool.and_false _).symm
  | some e => exact wantsSync_under hroot (h _ hi e rfl)

/-- The event of a new route file at the top of a workspace. -/
def newPage : Event := ⟨.create, [.ofString "+page.svelte"]⟩

theorem isBelow_newPage : ∀ p ∈ newPage.paths, p.IsBelow := by decide +kernel

theorem syncTimes_of_isSetAside (hroot : root.isAbsolute = true) (haside : Route.IsSetAside root) (sync : Nat → Task)
    (close : Nat) {items : List (Nat × Option Event)} (h : AreBelow items) : syncTimes root sync close items = [] := by
  have hsilent : ∀ i ∈ told root items, asks i.2 = false := by
    have hall := asks_told hroot h
    rw [Route.isIgnored_iff.mpr haside] at hall
    intro i hi
    have hmem := List.mem_map_of_mem (f := fun i : Nat × Option Event => (i.1, asks i.2)) hi
    rw [hall] at hmem
    obtain ⟨j, -, hj⟩ := List.mem_map.mp hmem
    exact (Prod.mk.inj hj).2.symm
  rw [syncTimes, run_of_not_asks sync close hsilent rfl rfl]
  rfl

theorem syncTimes_of_not_isSetAside (hroot : root.isAbsolute = true) (haside : ¬Route.IsSetAside root)
    (sync : Nat → Task) (close : Nat) {items : List (Nat × Option Event)} (h : AreBelow items) :
    syncTimes root sync close items =
      ((run sync close { delay := Reaction.routeDelay } items).2.filter (·.isStart)).map (·.time) := by
  have hasks : (told root items).map (fun i => (i.1, asks i.2)) = items.map fun i => (i.1, asks i.2) := by
    rw [asks_told hroot h, Bool.eq_false_iff.mpr (mt Route.isIgnored_iff.mp haside)]
    rfl
  rw [syncTimes, run_congr sync close hasks]

theorem areBelow_newPage : AreBelow [(0, some newPage)] := by
  intro i hi e he
  cases List.mem_singleton.mp hi
  cases he
  exact isBelow_newPage

theorem syncTimes_newPage (hroot : root.isAbsolute = true) (haside : ¬Route.IsSetAside root) :
    syncTimes root (fun _ => ⟨"sync", 1⟩) Reaction.routeDelay [(0, some newPage)] = [Reaction.routeDelay] := by
  rw [syncTimes_of_not_isSetAside hroot haside _ _ areBelow_newPage]
  set d : Debouncer := { delay := Reaction.routeDelay } with hd
  have hpast : ((d.schedule 0 ⟨"sync", 1⟩).advance Reaction.routeDelay).2 =
      [TaskEvent.start "sync" Reaction.routeDelay].mergeSort fun a b => a.time ≤ b.time := by
    have hfired : ((d.schedule 0 ⟨"sync", 1⟩).fire Reaction.routeDelay).2 ++
        (((d.schedule 0 ⟨"sync", 1⟩).fire Reaction.routeDelay).1.retire Reaction.routeDelay).2 =
          [TaskEvent.start "sync" Reaction.routeDelay] := by decide +kernel
    exact congrArg (List.mergeSort · _) hfired
  have hasks : asks (some newPage) = true := by decide +kernel
  simp only [run, advance_of_idle (d := d) rfl rfl, take, hasks, if_true, hpast, List.mergeSort_singleton]
  decide

theorem not_movesTo (hroot : root.isAbsolute = true) (hroot' : root'.isAbsolute = true) (haside : Route.IsSetAside root)
    (hfree : ¬Route.IsSetAside root') : ¬MovesTo root root' ∧ ¬MovesTo root' root := by
  have hsilent := syncTimes_of_isSetAside hroot haside (fun _ => ⟨"sync", 1⟩) Reaction.routeDelay areBelow_newPage
  have hruns := syncTimes_newPage hroot' hfree
  constructor
  · intro h
    rw [h _ _ _ areBelow_newPage, hruns] at hsilent
    cases hsilent
  · intro h
    rw [h _ _ _ areBelow_newPage, hsilent] at hruns
    cases hruns

/-- **Where a workspace lies makes a difference only through the directories that are set aside**: the watcher goes by
what is below the root exactly if none of them is on the way to it. The same happens at the same times below two roots
exactly if this is so for both of them or for neither; for a root that is set aside, nothing ever happens. -/
theorem heedsOwn_and_movesTo_iff (hroot : root.isAbsolute = true) (hroot' : root'.isAbsolute = true) :
    (HeedsOwn root ↔ ¬Route.IsSetAside root) ∧
      (MovesTo root root' ↔ (Route.IsSetAside root ↔ Route.IsSetAside root')) ∧
      (Route.IsSetAside root →
        ∀ sync close items, AreBelow items → syncTimes root sync close items = []) := by
  refine ⟨⟨fun h haside => ?asks, fun hfree e hchange hbelow => ?heeds⟩, ⟨fun h => ?tells, fun h => ?moves⟩,
    fun haside sync close items => syncTimes_of_isSetAside hroot haside sync close⟩
  case asks =>
    have hasks := (h newPage rfl isBelow_newPage).mpr ((wantsSync_iff rfl).mp (by decide +kernel))
    rw [wantsSync_under hroot isBelow_newPage, Route.isIgnored_iff.mpr haside] at hasks
    cases hasks
  case heeds =>
    rw [wantsSync_under hroot hbelow, Bool.eq_false_iff.mpr (mt Route.isIgnored_iff.mp hfree)]
    exact wantsSync_iff hchange
  case tells =>
    by_contra hne
    by_cases haside : Route.IsSetAside root
    · have hfree : ¬Route.IsSetAside root' := fun haside' => hne (iff_of_true haside haside')
      exact (not_movesTo hroot hroot' haside hfree).1 h
    · have haside' : Route.IsSetAside root' := by_contra fun hfree => hne (iff_of_false haside hfree)
      exact (not_movesTo hroot' hroot haside' haside).2 h
  case moves =>
    intro sync close items hbelow
    by_cases haside : Route.IsSetAside root
    · rw [syncTimes_of_isSetAside hroot haside sync close hbelow,
        syncTimes_of_isSetAside hroot' (h.mp haside) sync close hbelow]
    · rw [syncTimes_of_not_isSetAside hroot haside sync close hbelow,
        syncTimes_of_not_isSetAside hroot' (mt h.mpr haside) sync close hbelow]

/-- A workspace among dependencies, and one that is not. -/
theorem heedsOwn_and_movesTo_of_dependency :
    let root := Path.ofString "/srv/node_modules/app"
    let root' := Path.ofString "/srv/app"
    (root.isAbsolute = true ∧ root'.isAbsolute = true) ∧ HeedsOwn root' ∧ MovesTo root' (.ofString "/home/app") ∧
      ¬HeedsOwn root ∧ ¬MovesTo root root' ∧
        ∀ sync close items, AreBelow items → syncTimes root sync close items = [] := by
  intro root root'
  have hroot : root.isAbsolute = true := by decide +kernel
  have hroot' : root'.isAbsolute = true := by decide +kernel
  have haside : Route.IsSetAside root := by decide +kernel
  have hfree : ¬Route.IsSetAside root' := by decide +kernel
  have hhome : ¬Route.IsSetAside (.ofString "/home/app") := by decide +kernel
  obtain ⟨hheeds, hmoves, hsilent⟩ := heedsOwn_and_movesTo_iff hroot hroot'
  have hhomeRoot : (Path.ofString "/home/app").isAbsolute = true := by decide +kernel
  obtain ⟨hheeds', hmoves', -⟩ := heedsOwn_and_movesTo_iff hroot' hhomeRoot
  refine ⟨⟨hroot, hroot'⟩, hheeds'.mpr hfree, hmoves'.mpr (iff_of_false hfree hhome), ?_, ?_, hsilent haside⟩
  · exact fun h => hheeds.mp h haside
  · exact fun h => hfree ((hmoves.mp h).mp haside)

/-- A new route file in a workspace among dependencies is not noticed, and it is when the workspace has moved. -/
theorem heeds_directories_above :
    let root := Path.ofString "/srv/node_modules/app"
    let root' := Path.ofString "/srv/app"
    let e : Event := ⟨.create, [.ofString "src/+page.svelte"]⟩
    (e.isChange = true ∧ ∀ p ∈ e.paths, p.IsBelow ∧ Route.isRouteFile p = true ∧ ¬Route.IsSetAside p) ∧
      Reaction.wantsSync (e.under root) = false ∧ Reaction.wantsSync (e.under root') = true ∧
        ¬HeedsOwn root ∧ ¬MovesTo root root' := by
  intro root root' e
  have hpage : ∀ p ∈ e.paths, p.IsBelow ∧ Route.isRouteFile p = true ∧ ¬Route.IsSetAside p := by decide +kernel
  have hmissed : Reaction.wantsSync (e.under root) = false := by decide +kernel
  refine ⟨⟨rfl, hpage⟩, hmissed, by decide +kernel, fun h => ?_, ?_⟩
  · have hmem : Path.ofString "src/+page.svelte" ∈ e.paths := List.mem_singleton_self _
    have hasks := (h e rfl fun p hp => (hpage p hp).1).mpr ⟨_, hmem, (hpage _ hmem).2⟩
    rw [hmissed] at hasks
    cases hasks
  · exact (not_movesTo (by decide +kernel) (by decide +kernel) (by decide +kernel) (by decide +kernel)).1

end Routes

end Watch

end WarmCheck

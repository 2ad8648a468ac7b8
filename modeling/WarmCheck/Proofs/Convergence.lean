import WarmCheck.Proofs.Lookups

/-!
# Batches in any order

What a batch of events leaves behind does not depend on the order in which its paths are compared with the disk. What
is missing takes away only what is below it, and nothing that is there is below what is missing.

* `Disk.Reads`: a path at and below which the disk can be read.
* `KnownFiles.Brings`, `KnownFiles.brings_iff`: what is learnt from a path.
* `KnownFiles.isLost`: what is at or below a missing path; `KnownFiles.isLost_of_hasFile`: no file that is there.
* `KnownFiles.mem_observeAll`, `KnownFiles.count_observeAll`: the outcome of many paths.
* **`KnownFiles.converges`**: the outcome of a batch, and of all batches that name the same paths.
-/

namespace WarmCheck

open Disk

/-- An absolute path without idle parts, at and below which the disk can be read throughout: directories can be
listed, and what is in them can be looked for. -/
def Disk.Reads (d : Disk) (p : Path) : Prop :=
  ∃ place : Place, p = place.path ∧ (∀ name ∈ place, IsEntry name) ∧ d.isListableAt place = true ∧
    d.isReachableAt place = true

theorem Disk.reads_of_lookup {d : Disk} {place : Place} {n : Node} (hplace : ∀ name ∈ place, IsEntry name)
    (hn : d.lookup false place.path = .ok n) (hlist : n.isListable place = true)
    (hreach : n.isReachable place = true) : d.Reads place.path :=
  ⟨place, rfl, hplace, by rw [isListableAt, hn]; exact hlist, by rw [isReachableAt, hn]; exact hreach⟩

theorem Disk.reads_of_missing {d : Disk} {place : Place} {fault : Fault} (hplace : ∀ name ∈ place, IsEntry name)
    (hnone : d.lookup false place.path = .error fault) : d.Reads place.path :=
  ⟨place, rfl, hplace, by rw [isListableAt, hnone], by rw [isReachableAt, hnone]⟩

namespace KnownFiles

variable {k : KnownFiles} {d : ProperDisk} {p : Path} {ps : List Path} {e : List Component}

/-! ## Gains and losses -/

/-- What is learnt from a path: what a search finds if it is a directory, and itself if something else is there. -/
def Brings (d : Disk) (p : Path) (e : List Component) : Prop :=
  match d.lookup false p with
  | .ok (.dir ..) => ∃ found, scan d p = .ok found ∧ e ∈ found.files
  | .ok _ => e = p.components
  | .error _ => False

theorem brings_iff (hp : d.Reads p) : Brings d p e ↔ d.hasFile p e = true := by
  obtain ⟨place, rfl, hplace, hlist, -⟩ := hp
  rw [isListableAt] at hlist
  rw [Brings]
  cases hn : d.lookup false place.path with
  | error fault => simp [hasFile, hn]
  | ok n =>
    rw [hn] at hlist
    cases n with
    | dir mode es =>
      obtain ⟨found, hfound, hmem⟩ := exists_scan hplace hn (d.isProper_of_lookup hn) hlist
      simp only [hfound, Except.ok.injEq, exists_eq_left', hmem]
    | file | link | socket =>
      rw [hasFile_iff hn, ← mem_leaf_iff rfl]
      simp

/-- What is at or below a path of which nothing is there. -/
def isLost (d : Disk) (ps : List Path) (e : List Component) : Bool :=
  ps.any fun p => !d.occupied p && p.components.isPrefixOf e

theorem isLost_iff {d : Disk} : isLost d ps e = true ↔ ∃ p ∈ ps, d.occupied p = false ∧ p.components <+: e := by
  simp [isLost]

theorem isLost_congr {d : Disk} {ps' : List Path} (h : ∀ p, p ∈ ps' ↔ p ∈ ps) : isLost d ps' = isLost d ps := by
  funext e
  rw [Bool.eq_iff_iff, isLost_iff, isLost_iff]
  simp only [h]

/-- **A file that is there is not below a missing path.** -/
theorem isLost_of_hasFile (hps : ∀ q ∈ ps, d.Reads q) (hp : d.Reads p)
    (hfile : d.hasFile p e = true) : isLost d ps e = false := by
  obtain ⟨place, rfl, hplace, hlist, hreach⟩ := hp
  rw [Bool.eq_false_iff, Ne, isLost_iff]
  rintro ⟨q, hq, hmissing, habove⟩
  obtain ⟨here, rfl, hat, -⟩ := hps q hq
  have hthere := occupied_of_hasFile hplace hat hlist hreach hfile habove
  rw [hmissing] at hthere
  cases hthere

/-- What is counted first, and then in what is left of it, is counted in all. -/
theorem countP_add_countP_filter (P Q : List Component → Bool) (fs : List (List Component)) :
    fs.countP P + (fs.filter (!P ·)).countP Q = fs.countP fun e => P e || Q e := by
  rw [List.countP_eq_countP_filter_add fs (fun e => P e || Q e) P]
  congr 1
  · rw [List.countP_filter]
    exact List.countP_congr fun e _ => by simp +contextual
  · exact List.countP_congr fun e he => by simp_all

theorem countP_foldl_place {P : List Component → Bool} {new fs : List (List Component)}
    (h : ∀ f ∈ new, P f = false) : (new.foldl (fun fs f => place f fs) fs).countP P = fs.countP P := by
  induction new generalizing fs with
  | nil => rfl
  | cons f new ih =>
    obtain ⟨hf, hnew⟩ := List.forall_mem_cons.mp h
    rw [List.foldl_cons, ih hnew]
    induction fs with
    | nil => simp [place, hf]
    | cons g fs ihfs =>
      rw [place]
      split_ifs
      · rfl
      · rw [List.countP_cons, if_neg (by simp [hf]), Nat.add_zero]
      · rw [List.countP_cons, List.countP_cons, ihfs]

/-! ## Many paths -/

/-- What is known after paths have been looked at. -/
theorem mem_observeAll (hk : k.IsOrdered) (hps : ∀ p ∈ ps, d.Reads p) :
    e ∈ (k.observeAll d ps).1.files ↔ e ∈ k.files ∧ isLost d ps e = false ∨ ∃ p ∈ ps, d.hasFile p e = true := by
  induction ps generalizing k with
  | nil => simp [observeAll, isLost]
  | cons p ps ih =>
    obtain ⟨hp, hrest⟩ := List.forall_mem_cons.mp hps
    obtain ⟨place, rfl, hplace, hlist, hreach⟩ := id hp
    -- What is learnt here is not lost to a later path, so that it does not matter which comes first.
    have hkept : d.hasFile place.path e = true → isLost d ps e = false := isLost_of_hasFile hrest hp
    have hlost : isLost d (place.path :: ps) e = false ↔
        (d.occupied place.path = true ∨ ¬place.path.components <+: e) ∧ isLost d ps e = false := by
      rw [isLost, List.any_cons, Bool.or_eq_false_iff, ← isLost, Bool.and_eq_false_iff, Bool.not_eq_false',
        ← Bool.not_eq_true (List.isPrefixOf _ _), List.isPrefixOf_iff_prefix]
    show e ∈ ((k.observe d place.path).1.observeAll d ps).1.files ↔ _
    rw [ih (hk.observe d place.path) hrest, mem_observe hk hplace hlist, hlost, List.exists_mem_cons_iff,
      or_and_right, and_assoc, or_assoc, and_iff_left_of_imp hkept]
    exact or_left_comm

/-- How many files have vanished after paths have been looked at. -/
theorem count_observeAll (hk : k.IsOrdered) (hps : ∀ p ∈ ps, d.Reads p) :
    (k.observeAll d ps).2 = k.files.countP (isLost d ps) := by
  induction ps generalizing k with
  | nil => exact (List.countP_eq_zero.mpr fun _ _ => Bool.false_ne_true).symm
  | cons p ps ih =>
    obtain ⟨hp, hrest⟩ := List.forall_mem_cons.mp hps
    obtain ⟨place, rfl, hplace, hlist, hreach⟩ := id hp
    show (k.observe d place.path).2 + ((k.observe d place.path).1.observeAll d ps).2 = _
    rw [ih (hk.observe d place.path) hrest]
    cases h : d.occupied place.path with
    | true =>
      obtain ⟨new, hnew, hmem⟩ := observe_of_occupied (k := k) hplace hlist h
      have hsame : isLost d (place.path :: ps) = isLost d ps := by
        funext e
        rw [isLost, List.any_cons, h]
        rfl
      rw [hnew, Nat.zero_add, hsame]
      exact countP_foldl_place fun f hf => isLost_of_hasFile hrest hp ((hmem f).mp hf)
    | false =>
      have hlost : isLost d (place.path :: ps) = fun e => place.path.components.isPrefixOf e || isLost d ps e := by
        funext e
        rw [isLost, List.any_cons, h]
        rfl
      rw [observe_of_not_occupied h, forget_eq hk, hlost]
      exact countP_add_countP_filter _ _ k.files

theorem observeAll_append (k : KnownFiles) (d : Disk) (ps qs : List Path) :
    k.observeAll d (ps ++ qs) = (((k.observeAll d ps).1.observeAll d qs).1,
      (k.observeAll d ps).2 + ((k.observeAll d ps).1.observeAll d qs).2) := by
  induction ps generalizing k with
  | nil => simp [observeAll]
  | cons p ps ih => simp only [List.cons_append, observeAll, ih, Nat.add_assoc]

/-- The order in which paths are looked at does not matter, nor how often each is. -/
theorem observeAll_congr {qs : List Path} (hk : k.IsOrdered)
    (hps : ∀ p ∈ ps, d.Reads p) (h : ∀ p, p ∈ qs ↔ p ∈ ps) : k.observeAll d qs = k.observeAll d ps := by
  have hqs : ∀ q ∈ qs, d.Reads q := fun q hq => hps q ((h q).mp hq)
  refine Prod.ext ((hk.observeAll d qs).eq_of_mem_iff (hk.observeAll d ps) fun e => ?_) ?_
  · rw [mem_observeAll hk hqs, mem_observeAll hk hps, isLost_congr h]
    simp only [h]
  · rw [count_observeAll hk hqs, count_observeAll hk hps, isLost_congr h]

/-! ## Batches -/

/-- Batches one after the other, and how many files have vanished in all. -/
def applyBatches (k : KnownFiles) (d : Disk) : List (List Watch.Event) → KnownFiles × Nat
  | [] => (k, 0)
  | b :: bs =>
    let (k, n) := k.applyBatch d b
    let (k, m) := k.applyBatches d bs
    (k, n + m)

theorem applyBatches_eq (k : KnownFiles) (d : Disk) (bs : List (List Watch.Event)) :
    k.applyBatches d bs = k.applyBatch d bs.flatten := by
  induction bs generalizing k with
  | nil => rfl
  | cons b bs ih =>
    have hpaths : pathsOf (b :: bs).flatten = pathsOf b ++ pathsOf bs.flatten := by simp [pathsOf]
    rw [applyBatch, hpaths, observeAll_append, applyBatches]
    simp only [ih]
    rfl

/-- A path that an event of a batch names, where the event tells of something that may have appeared or vanished. -/
theorem mem_pathsOf {batch : List Watch.Event} :
    p ∈ pathsOf batch ↔ ∃ e ∈ batch, e.kind.isRenameClass = true ∧ p ∈ e.paths := by
  simp [pathsOf, and_assoc]

/-- **The outcome of a batch.** What was known stays known unless it is at or below a missing path, and is counted
otherwise; and what is there is learnt. Batches that name the same paths together, in whatever order and however
often, have the same outcome. -/
theorem converges {batch : List Watch.Event} (hk : k.IsOrdered)
    (hreads : ∀ e ∈ batch, e.kind.isRenameClass = true → ∀ p ∈ e.paths, d.Reads p) :
    (∀ f, f ∈ (k.applyBatch d batch).1.files ↔
        f ∈ k.files ∧ isLost d (pathsOf batch) f = false ∨ ∃ p ∈ pathsOf batch, Brings d p f) ∧
      (∀ p ∈ pathsOf batch, ∀ f, Brings d p f ↔ d.hasFile p f = true) ∧
      (k.applyBatch d batch).2 = k.files.countP (isLost d (pathsOf batch)) ∧
      ∀ batches : List (List Watch.Event), (∀ p, p ∈ pathsOf batches.flatten ↔ p ∈ pathsOf batch) →
        k.applyBatches d batches = k.applyBatch d batch := by
  have hps : ∀ p ∈ pathsOf batch, d.Reads p := fun p hp => by
    obtain ⟨e, he, hkind, hp⟩ := mem_pathsOf.mp hp
    exact hreads e he hkind p hp
  have hbrings : ∀ p ∈ pathsOf batch, ∀ f, Brings d p f ↔ d.hasFile p f = true := fun p hp f =>
    brings_iff (hps p hp)
  refine ⟨fun f => ?_, hbrings, count_observeAll hk hps, fun batches hsame => ?_⟩
  · rw [applyBatch, mem_observeAll hk hps]
    exact or_congr_right (exists_congr fun p => and_congr_right fun hp => (hbrings p hp f).symm)
  · rw [applyBatches_eq]
    exact observeAll_congr hk hps hsame

/-- A file that has vanished with what was known below it, named twice; the whole disk, and a directory in it; and a
change that does not count. The same again one event after the other, the last one first. -/
theorem converges_of_four_events :
    let d : ProperDisk :=
      ⟨⟨.dir dirMode [([97], .file [] fileMode), ([100], .dir dirMode [([98], .link (.ofString "/a"))])], []⟩,
        by decide +kernel⟩
    let k : KnownFiles := insertAll {} [.ofString "/a", .ofString "/x", .ofString "/x/y", .ofString "/z"]
    let batch : List Watch.Event := [⟨.remove, [.ofString "/x"]⟩, ⟨.create, [.ofString "/"]⟩,
      ⟨.modifyData, [.ofString "/z"]⟩, ⟨.modifyName, [.ofString "/x", .ofString "/d"]⟩]
    let outcome := (insertAll {} [.ofString "/a", .ofString "/d/b", .ofString "/z"], 2)
    (k.IsOrdered ∧
        ∀ e ∈ batch, e.kind.isRenameClass = true → ∀ p ∈ e.paths, d.Reads p) ∧
      k.applyBatch d batch = outcome ∧ k.applyBatches d (batch.reverse.map ([·])) = outcome := by
  intro d k batch outcome
  have hroot : ∀ follow, d.lookup follow (.ofString "/") = .ok d.top := fun follow =>
    lookup_eq_ok_iff.mpr ⟨rfl, [], walk_nil rfl follow maxLinks⟩
  have hdir : ∀ follow, d.lookup follow (.ofString "/d") = .ok (.dir dirMode [([98], .link (.ofString "/a"))]) := by
    intro follow
    have hwalk : d.walk follow maxLinks [] [[100]] = d.walk follow maxLinks [[100]] [] :=
      walk_cons rfl rfl ⟨by decide, by decide, by decide⟩ rfl (fun _ => Node.noConfusion) follow maxLinks []
    exact lookup_eq_ok_iff.mpr ⟨rfl, _, hwalk.trans (walk_nil rfl follow maxLinks)⟩
  have hnone : d.lookup false (.ofString "/x") = .error (.os .noEntry) := by
    have hwalk : d.walk false maxLinks [] [[120]] = .ok (.vacant [] [120]) := by
      rw [walk.eq_def]
      rfl
    have hfind : d.find false (.ofString "/x") = .ok (.vacant [] [120]) := congrArg (Except.mapError Fault.os) hwalk
    rw [lookup, hfind]
    rfl
  have hreadsRoot : d.Reads (Place.path []) :=
    reads_of_lookup (by decide) (hroot false) (by decide +kernel) (by decide +kernel)
  have hreadsDir : d.Reads (Place.path [[100]]) :=
    reads_of_lookup (by decide) (hdir false) (by decide +kernel) (by decide +kernel)
  have hreadsNone : d.Reads (Place.path [[120]]) := reads_of_missing (by decide) hnone
  have hk : k.IsOrdered := by decide +kernel
  have hreads : ∀ e ∈ batch, e.kind.isRenameClass = true → ∀ p ∈ e.paths, d.Reads p := by
    simp only [batch, List.forall_mem_cons, List.not_mem_nil, false_imp_iff, implies_true, and_true]
    exact ⟨fun _ => hreadsNone, fun _ => hreadsRoot, Bool.noConfusion, fun _ => ⟨hreadsNone, hreadsDir⟩⟩
  have hpaths : pathsOf batch = [.ofString "/x", .ofString "/", .ofString "/x", .ofString "/d"] := by decide
  have houtcome : k.applyBatch d batch = outcome := by
    rw [applyBatch, hpaths]
    simp only [observeAll, observe, scan, hroot, hdir, hnone]
    decide +kernel
  have hreversed : (pathsOf (batch.reverse.map ([·])).flatten).Perm (pathsOf batch) := by decide
  obtain ⟨-, -, -, hany⟩ := converges hk hreads
  exact ⟨⟨hk, hreads⟩, houtcome, (hany _ fun _ => hreversed.mem_iff).trans houtcome⟩

end KnownFiles

end WarmCheck

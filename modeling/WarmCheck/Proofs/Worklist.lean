import Mathlib.Algebra.Ring.Nat
import WarmCheck.Proofs.Scans

/-!
# Searches from a worklist

A search lists one directory after the other, in whatever order their entries come, and keeps those that are still to
be listed on a stack. It comes to an end, since each step takes a directory away and brings in only those that are in
it. Links are never entered, so that it does not matter where they lead, be it around in circles.

* `Search.step`, `Search.Ends`: a search that is under way, and how it ends.
* `Search.cases_of_step`, `Search.scan_of_step`: all that a step can do.
* `Search.work_step`: there is less left to do after a step.
* `Search.keeps_step`, `Search.Ends.spec`: what will have been found in the end, from any state on.
* `Search.exists_ends`: a search comes to an end.
* `KnownFiles.IsScanned`: the files below a root, or a failure.
* **`KnownFiles.isScanned_search`**: every search comes to an end with exactly the files.
-/

namespace WarmCheck

open Disk

/-- A search that is under way: the files that have been found, and the directories that are still to be listed, the
next one first. -/
structure Search where
  found : KnownFiles
  pending : List Path

namespace Search

/-- An entry of the directory at a path: a directory is to be listed, and anything else counts as a file. -/
def enter (p : Path) (s : Search) (e : Name × Node) : Search :=
  if e.2.isDir then { s with pending := p.child e.1 :: s.pending }
  else { s with found := s.found.insert (p.child e.1) }

/-- The directory at a path listed, with its entries as `arrange` puts them. One that is gone is passed over. -/
def step (d : Disk) (arrange : Path → List (Name × Node) → List (Name × Node)) (found : KnownFiles) (p : Path)
    (rest : List Path) : Except Failure Search :=
  match d.list p with
  | .ok es => .ok ((arrange p es).foldl (enter p) ⟨found, rest⟩)
  | .error (.os .noEntry) => .ok ⟨found, rest⟩
  | .error fault => .error (.io p fault)

/-- How a search ends: with what has been found when nothing is pending, or as soon as a step fails. -/
inductive Ends (d : Disk) (arrange : Path → List (Name × Node) → List (Name × Node)) :
    Search → Except Failure KnownFiles → Prop where
  | done (found : KnownFiles) : Ends d arrange ⟨found, []⟩ (.ok found)
  | failed {found : KnownFiles} {p : Path} {rest : List Path} {f : Failure}
      (h : step d arrange found p rest = .error f) : Ends d arrange ⟨found, p :: rest⟩ (.error f)
  | next {found : KnownFiles} {p : Path} {rest : List Path} {s : Search} {o : Except Failure KnownFiles}
      (h : step d arrange found p rest = .ok s) (hs : Ends d arrange s o) : Ends d arrange ⟨found, p :: rest⟩ o

variable {d : Disk} {arrange : Path → List (Name × Node) → List (Name × Node)} {found : KnownFiles} {p : Path}
  {rest : List Path} {s : Search} {es : List (Name × Node)}

/-- A search ends in one way only. -/
theorem Ends.unique {o o' : Except Failure KnownFiles} (h : Ends d arrange s o) (h' : Ends d arrange s o') :
    o' = o := by
  induction h with
  | done found => cases h'; rfl
  | failed h =>
    cases h' with
    | failed hf =>
      rw [h] at hf
      cases hf
      rfl
    | next hs =>
      rw [h] at hs
      cases hs
  | next h _ ih =>
    cases h' with
    | failed hf =>
      rw [h] at hf
      cases hf
    | next hs hends =>
      rw [h] at hs
      cases hs
      exact ih hends

/-! ## A step -/

/-- The directories among the entries of the directory at a path. -/
def dirsAmong (p : Path) (es : List (Name × Node)) : List Path := (es.filter (·.2.isDir)).map (p.child ·.1)

/-- The other entries of the directory at a path. -/
def filesAmong (p : Path) (es : List (Name × Node)) : List Path := (es.filter (!·.2.isDir)).map (p.child ·.1)

theorem foldl_enter (p : Path) (es : List (Name × Node)) (s : Search) :
    es.foldl (enter p) s = ⟨s.found.insertAll (filesAmong p es), (dirsAmong p es).reverse ++ s.pending⟩ := by
  induction es generalizing s with
  | nil => rfl
  | cons e es ih =>
    rw [List.foldl_cons, ih, enter]
    cases hdir : e.2.isDir <;> simp [filesAmong, dirsAmong, hdir, KnownFiles.insertAll]

theorem mem_dirsAmong {q : Path} : q ∈ dirsAmong p es ↔ ∃ e ∈ es, e.2.isDir = true ∧ q = p.child e.1 := by
  rw [dirsAmong, List.mem_map]
  simp only [List.mem_filter, and_assoc, eq_comm (a := q)]

theorem mem_filesAmong {q : Path} : q ∈ filesAmong p es ↔ ∃ e ∈ es, e.2.isDir = false ∧ q = p.child e.1 := by
  rw [filesAmong, List.mem_map]
  simp only [List.mem_filter, Bool.not_eq_true', and_assoc, eq_comm (a := q)]

/-- A step lists a directory, passes over what is missing, or fails where a search from there on fails. -/
theorem step_cases (d : Disk) (arrange : Path → List (Name × Node) → List (Name × Node)) (found : KnownFiles)
    (p : Path) (rest : List Path) :
    (∃ mode es, d.lookup true p = .ok (.dir mode es) ∧ may 4 mode = true ∧ step d arrange found p rest =
      .ok ⟨found.insertAll (filesAmong p (arrange p es)), (dirsAmong p (arrange p es)).reverse ++ rest⟩) ∨
    (d.lookup true p = .error (.os .noEntry) ∧ step d arrange found p rest = .ok ⟨found, rest⟩) ∨
    ∃ f, KnownFiles.scan d p = .error f ∧ step d arrange found p rest = .error f := by
  cases h : d.lookup true p with
  | ok n =>
    cases n with
    | file | link | socket => exact .inr (.inr ⟨_, by rw [KnownFiles.scan, h], by rw [step, list, h]; rfl⟩)
    | dir mode es =>
      have hlist := KnownFiles.list_of_lookup h
      cases hmay : may 4 mode with
      | true =>
        rw [hmay, if_pos rfl] at hlist
        refine .inl ⟨mode, es, rfl, hmay, ?_⟩
        rw [step, hlist]
        exact congrArg Except.ok (foldl_enter p (arrange p es) ⟨found, rest⟩)
      | false =>
        have hscan := KnownFiles.scan_of_lookup h
        rw [hmay, if_neg Bool.false_ne_true] at hlist hscan
        refine .inr (.inr ⟨_, hscan, ?_⟩)
        rw [step, hlist]
        rfl
  | error fault =>
    have hlist := KnownFiles.list_of_fault h
    by_cases hnone : fault = .os .noEntry
    · subst hnone
      exact .inr (.inl ⟨rfl, by rw [step, hlist]; rfl⟩)
    · refine .inr (.inr ⟨_, KnownFiles.scan_of_fault h hnone, ?_⟩)
      rw [step, hlist]
      split
      · next heq => cases heq
      · next heq => cases heq; exact absurd rfl hnone
      · next heq => cases heq; rfl

/-- What a step that succeeds comes to. -/
theorem cases_of_step (h : step d arrange found p rest = .ok s) :
    (∃ mode es, d.lookup true p = .ok (.dir mode es) ∧ may 4 mode = true ∧
      s = ⟨found.insertAll (filesAmong p (arrange p es)), (dirsAmong p (arrange p es)).reverse ++ rest⟩) ∨
    (d.lookup true p = .error (.os .noEntry) ∧ s = ⟨found, rest⟩) := by
  rcases step_cases d arrange found p rest with ⟨mode, es, hlookup, hmay, hstep⟩ | ⟨hnone, hstep⟩ | ⟨f, -, hstep⟩
  · exact .inl ⟨mode, es, hlookup, hmay, Except.ok.inj (h.symm.trans hstep)⟩
  · exact .inr ⟨hnone, Except.ok.inj (h.symm.trans hstep)⟩
  · cases h.symm.trans hstep

/-- Where a step fails, a search from there on fails in the same way. -/
theorem scan_of_step {f : Failure} (h : step d arrange found p rest = .error f) : KnownFiles.scan d p = .error f := by
  rcases step_cases d arrange found p rest with ⟨mode, es, -, -, hstep⟩ | ⟨-, hstep⟩ | ⟨f', hscan, hstep⟩
  · cases h.symm.trans hstep
  · cases h.symm.trans hstep
  · obtain rfl := Except.error.inj (hstep.symm.trans h)
    exact hscan

/-! ## What is left to do -/

/-- The number of directories that a search from a path on will list at most. -/
def effort (d : Disk) (p : Path) : Nat :=
  match d.lookup true p with
  | .ok n => n.dirCount
  | .error _ => 1

/-- The number of directories that a search will list at most. -/
def work (d : Disk) (s : Search) : Nat := (s.pending.map (effort d)).sum

theorem sum_effort_le (h : ∀ e ∈ es, e.2.isDir = true → effort d (p.child e.1) ≤ e.2.dirCount) :
    ((dirsAmong p es).map (effort d)).sum ≤ Node.dirCountIn es := by
  induction es with
  | nil => exact Nat.le_refl 0
  | cons e es ih =>
    obtain ⟨name, n⟩ := e
    obtain ⟨hfirst, hrest⟩ := List.forall_mem_cons.mp h
    have hle := ih hrest
    rw [dirsAmong] at hle ⊢
    rw [Node.dirCountIn]
    cases hdir : n.isDir with
    | true =>
      rw [List.filter_cons_of_pos (by exact hdir), List.map_cons, List.map_cons, List.sum_cons]
      exact Nat.add_le_add (hfirst hdir) hle
    | false =>
      rw [List.filter_cons_of_neg (by simp [hdir])]
      exact hle.trans (Nat.le_add_left _ _)

/-- An entry that is a directory takes no more effort than the tree that it is. -/
theorem effort_entry_le {d : NamableDisk} {mode : Nat} (h : d.lookup true p = .ok (.dir mode es)) {e : Name × Node}
    (he : e ∈ es) (hdir : e.2.isDir = true) : effort d (p.child e.1) ≤ e.2.dirCount := by
  rcases KnownFiles.lookup_of_entry h (d.isProper_of_lookup h) (d.isNamable_of_lookup h) he hdir with
    hfound | ⟨fault, hfault, -⟩
  · rw [effort, hfound]
  · rw [effort, hfault]
    exact Node.dirCount_pos hdir

/-! ## What a step keeps -/

/-- Every search from a pending directory on succeeds. -/
def Succeeds (d : Disk) (s : Search) : Prop := ∀ p ∈ s.pending, ∃ k, KnownFiles.scan d p = .ok k

/-- What has been found, or is found by a search from a pending directory on. -/
def Finds (d : Disk) (s : Search) (c : List Component) : Prop :=
  c ∈ s.found.files ∨ ∃ p ∈ s.pending, ∃ k, KnownFiles.scan d p = .ok k ∧ c ∈ k.files

/-- What is found at entries is the files among them, and what is found below the directories among them. -/
theorem findsAt_iff {c : List Component} : (∃ e ∈ es, KnownFiles.FindsAt d (p.child e.1) e.2 c) ↔
    (∃ q ∈ filesAmong p es, c = q.components) ∨
      ∃ q ∈ dirsAmong p es, ∃ k, KnownFiles.scan d q = .ok k ∧ c ∈ k.files := by
  constructor
  · rintro ⟨e, he, hfinds⟩
    cases hdir : e.2.isDir with
    | true =>
      rw [KnownFiles.FindsAt, if_pos hdir] at hfinds
      exact .inr ⟨_, mem_dirsAmong.mpr ⟨e, he, hdir, rfl⟩, hfinds⟩
    | false =>
      rw [KnownFiles.FindsAt, if_neg (by rw [hdir]; exact Bool.false_ne_true)] at hfinds
      exact .inl ⟨_, mem_filesAmong.mpr ⟨e, he, hdir, rfl⟩, hfinds⟩
  · rintro (⟨q, hq, hc⟩ | ⟨q, hq, hfound⟩)
    · obtain ⟨e, he, hdir, rfl⟩ := mem_filesAmong.mp hq
      exact ⟨e, he, by rw [KnownFiles.FindsAt, if_neg (by rw [hdir]; exact Bool.false_ne_true)]; exact hc⟩
    · obtain ⟨e, he, hdir, rfl⟩ := mem_dirsAmong.mp hq
      exact ⟨e, he, by rw [KnownFiles.FindsAt, if_pos hdir]; exact hfound⟩

theorem not_succeeds_of_step {f : Failure} (h : step d arrange found p rest = .error f) :
    ¬(Search.mk found (p :: rest)).Succeeds d := by
  intro hall
  obtain ⟨k, hk⟩ := hall p List.mem_cons_self
  rw [scan_of_step h] at hk
  cases hk

section Step

variable {d : NamableDisk} (harrange : ∀ p es, (arrange p es).Perm es)
include harrange

/-- There is less left to do after a step. -/
theorem work_step (h : step d arrange found p rest = .ok s) : s.work d < (Search.mk found (p :: rest)).work d := by
  rcases cases_of_step h with ⟨mode, es, hlookup, -, rfl⟩ | ⟨hnone, rfl⟩
  · -- The directory itself is one, and what it brings in is not more than what else was counted.
    have hperm : (dirsAmong p (arrange p es)).Perm (dirsAmong p es) := ((harrange p es).filter _).map _
    have hsum : ((dirsAmong p (arrange p es)).map (effort d)).sum = ((dirsAmong p es).map (effort d)).sum :=
      (hperm.map _).sum_nat
    have hhere : effort d p = Node.dirCountIn es + 1 := by
      rw [effort, hlookup]
      rfl
    have hle := sum_effort_le (p := p) fun e => effort_entry_le hlookup (e := e)
    simp only [work, List.map_append, List.sum_append, List.map_reverse, List.sum_reverse, List.map_cons, List.sum_cons]
    omega
  · have hhere : effort d p = 1 := by rw [effort, hnone]
    simp only [work, List.map_cons, List.sum_cons]
    omega

/-- Whether the search will succeed, and what it will have found then, is as before a step. -/
theorem keeps_step (h : step d arrange found p rest = .ok s) :
    (s.Succeeds d ↔ (Search.mk found (p :: rest)).Succeeds d) ∧
      ((Search.mk found (p :: rest)).Succeeds d → ∀ c, s.Finds d c ↔ (Search.mk found (p :: rest)).Finds d c) := by
  rcases cases_of_step h with ⟨mode, es, hlookup, hmay, rfl⟩ | ⟨hnone, rfl⟩
  · obtain ⟨hok, hmem⟩ := KnownFiles.scan_law hlookup hmay (d.isProper_of_lookup hlookup)
      (d.isNamable_of_lookup hlookup)
    have hentries : ∀ e, e ∈ arrange p es ↔ e ∈ es := fun e => (harrange p es).mem_iff
    constructor
    · rw [Succeeds, Succeeds, List.forall_mem_append, List.forall_mem_cons, hok]
      simp only [List.mem_reverse, mem_dirsAmong, hentries]
      refine and_congr_left fun _ => ⟨fun hall e he hdir => hall _ ⟨e, he, hdir, rfl⟩, ?_⟩
      rintro hall q ⟨e, he, hdir, rfl⟩
      exact hall e he hdir
    · intro hall c
      obtain ⟨k, hk⟩ := hall p List.mem_cons_self
      have hhere : (∃ k, KnownFiles.scan d p = .ok k ∧ c ∈ k.files) ↔
          ∃ e ∈ arrange p es, KnownFiles.FindsAt d (p.child e.1) e.2 c := by
        simp only [hk, Except.ok.injEq, exists_eq_left', hmem k hk, hentries]
      rw [Finds, Finds, List.exists_mem_cons_iff, hhere, findsAt_iff, KnownFiles.mem_insertAll]
      simp only [List.mem_append, List.mem_reverse, or_and_right, exists_or, or_assoc, or_left_comm]
  · have hscan : KnownFiles.scan d p = .ok {} := by rw [KnownFiles.scan, hnone]; rfl
    constructor
    · rw [Succeeds, Succeeds, List.forall_mem_cons, and_iff_right ⟨{}, hscan⟩]
    · intro _ c
      rw [Finds, Finds, List.exists_mem_cons_iff]
      simp [hscan]

/-! ## A whole search -/

/-- A search that ends does so with all that is found below the pending directories, or fails. -/
theorem Ends.spec {o : Except Failure KnownFiles} (h : Ends d arrange s o) :
    (s.Succeeds d → ∃ k, o = .ok k ∧ ∀ c, c ∈ k.files ↔ s.Finds d c) ∧ (¬s.Succeeds d → ∃ f, o = .error f) := by
  induction h with
  | done found =>
    have hdone : (Search.mk found []).Succeeds d := fun _ h => (List.not_mem_nil h).elim
    exact ⟨fun _ => ⟨found, rfl, fun c => by simp [Finds]⟩, fun hnot => absurd hdone hnot⟩
  | failed h => exact ⟨fun hall => absurd hall (not_succeeds_of_step h), fun _ => ⟨_, rfl⟩⟩
  | next h _ ih =>
    obtain ⟨hsucceeds, hfinds⟩ := keeps_step harrange h
    rw [← hsucceeds]
    refine ⟨fun hall => ?_, ih.2⟩
    obtain ⟨k, hk, hmem⟩ := ih.1 hall
    exact ⟨k, hk, fun c => (hmem c).trans (hfinds (hsucceeds.mp hall) c)⟩

/-- **A search comes to an end.** -/
theorem exists_ends (s : Search) : ∃ o, Ends d arrange s o := by
  induction hwork : s.work d using Nat.strongRecOn generalizing s with
  | ind work ih =>
    obtain ⟨found, _ | ⟨p, rest⟩⟩ := s
    · exact ⟨_, .done found⟩
    · cases hstep : step d arrange found p rest with
      | error f => exact ⟨_, .failed hstep⟩
      | ok s =>
        have hless : s.work d < work := hwork ▸ work_step harrange hstep
        obtain ⟨o, ho⟩ := ih (s.work d) hless s rfl
        exact ⟨o, .next hstep ho⟩

end Step

/-- What is found stays in the order of paths. -/
theorem Ends.isOrdered {k : KnownFiles} (h : Ends d arrange s (.ok k)) (hs : s.found.IsOrdered) : k.IsOrdered := by
  generalize ho : Except.ok k = o at h
  induction h with
  | done found =>
    cases ho
    exact hs
  | failed h => cases ho
  | @next found p rest s _ h _ ih =>
    refine ih ?_ ho
    rcases cases_of_step h with ⟨mode, es, -, -, rfl⟩ | ⟨-, rfl⟩
    · exact KnownFiles.IsOrdered.insertAll hs _
    · exact hs

end Search

namespace KnownFiles

variable {d : Disk} {root : Path}

/-- What a search from a root on yields. If nothing is there, no files. If every directory that names lead down to
through directories that are no links can be listed, the paths of all that is in them and is no directory. Otherwise
no files at all, but a failure. The root alone may be a link to a directory, and nothing is there if it is one that
leads nowhere. -/
structure IsScanned (d : Disk) (root : Path) (o : Except Failure KnownFiles) : Prop where
  missing : d.lookup true root = .error (.os .noEntry) → o = .ok {}
  found : ∀ n, d.lookup true root = .ok n → n.isDir = true →
    (∀ rel, n.holdsDir rel = true → (d.list (root.below rel)).isOk = true) →
    ∃ k, o = .ok k ∧ ∀ c, c ∈ k.files ↔ ∃ rel, n.holdsFile rel = true ∧ c = (root.below rel).components
  unlisted : ∀ n rel, d.lookup true root = .ok n → n.holdsDir rel = true →
    (d.list (root.below rel)).isOk = false → ∃ f, o = .error f
  notDirectory : ∀ n, d.lookup true root = .ok n → n.isDir = false → ∃ f, o = .error f
  unreachable : ∀ fault, d.lookup true root = .error fault → fault ≠ .os .noEntry → ∃ f, o = .error f

theorem isScanned_scan {d : NamableDisk} : IsScanned d root (scan d root) where
  missing h := by rw [scan, h]; rfl
  found n h hdir hall := by
    have hproper := d.isProper_of_lookup h
    have hnamable := d.isNamable_of_lookup h
    obtain ⟨k, hk⟩ := (exists_scan_iff h hdir hproper hnamable).mpr hall
    exact ⟨k, hk, fun c => mem_scan_iff h hdir hproper hnamable hk⟩
  unlisted n rel h hrel hlist := by
    cases hk : scan d root with
    | error f => exact ⟨f, rfl⟩
    | ok k =>
      have hall := (exists_scan_iff h (Node.isDir_of_holdsDir hrel) (d.isProper_of_lookup h)
        (d.isNamable_of_lookup h)).mp ⟨k, hk⟩
      rw [hall rel hrel] at hlist
      cases hlist
  notDirectory n h hdir := by
    cases n with
    | dir => cases hdir
    | file | link | socket => exact ⟨_, by rw [scan, h]⟩
  unreachable fault h hne := ⟨_, scan_of_fault h hne⟩

/-- What a search yields matters only so far as it succeeds. -/
theorem IsScanned.of_toOption_eq {o o' : Except Failure KnownFiles} (h : IsScanned d root o)
    (heq : o'.toOption = o.toOption) : IsScanned d root o' := by
  have hok : ∀ {k}, o = .ok k → o' = .ok k := by
    intro k hk
    rw [hk] at heq
    cases o' with
    | error f => cases heq
    | ok k' =>
      cases heq
      rfl
  have herror : (∃ f, o = .error f) → ∃ f, o' = .error f := by
    rintro ⟨f, hf⟩
    rw [hf] at heq
    cases o' with
    | error f' => exact ⟨f', rfl⟩
    | ok k => cases heq
  exact {
    missing := fun hnone => hok (h.missing hnone)
    found := fun n hn hdir hall => (h.found n hn hdir hall).imp fun _ hk => ⟨hok hk.1, hk.2⟩
    unlisted := fun n rel hn hrel hlist => herror (h.unlisted n rel hn hrel hlist)
    notDirectory := fun n hn hdir => herror (h.notDirectory n hn hdir)
    unreachable := fun fault hfault hne => herror (h.unreachable fault hfault hne) }

/-- **Every search comes to an end with exactly the files**, whatever the order in which entries come, and in one way
only. Unless it fails, it yields what the tree of directories has been found to hold. -/
theorem isScanned_search {d : NamableDisk} (root : Path)
    (arrange : Path → List (Name × Node) → List (Name × Node)) (harrange : ∀ p es, (arrange p es).Perm es) :
    IsScanned d root (scan d root) ∧ ∃ o, (∀ o', Search.Ends d arrange ⟨{}, [root]⟩ o' ↔ o' = o) ∧
      IsScanned d root o ∧ o.toOption = (scan d root).toOption := by
  have hscan : IsScanned d root (scan d root) := isScanned_scan
  obtain ⟨o, hends⟩ := Search.exists_ends harrange ⟨{}, [root]⟩
  obtain ⟨hok, herror⟩ := hends.spec harrange
  have hsame : o.toOption = (scan d root).toOption := by
    cases hroot : scan d root with
    | error f =>
      have hfails : ¬(Search.mk {} [root]).Succeeds d := fun hall => by
        obtain ⟨k, hk⟩ := hall root List.mem_cons_self
        rw [hroot] at hk
        cases hk
      obtain ⟨f', rfl⟩ := herror hfails
      rfl
    | ok k =>
      obtain ⟨k', rfl, hmem⟩ := hok fun p hp => ⟨k, List.mem_singleton.mp hp ▸ hroot⟩
      have hk' : k'.IsOrdered := hends.isOrdered List.Pairwise.nil
      refine congrArg some (hk'.eq_of_mem_iff (isOrdered_scan hroot) fun c => ?_)
      rw [hmem, Search.Finds]
      simp [hroot]
  refine ⟨hscan, o, fun o' => ⟨hends.unique, ?_⟩, hscan.of_toOption_eq hsame, hsame⟩
  rintro rfl
  exact hends

/-- A directory with links to itself and to the one above, in which the last entry is taken first. -/
theorem isScanned_search_of_circles :
    let n : Node := .dir dirMode [([97], .file [] fileMode), ([108], .link (.ofString "/w/d")),
      ([115], .dir dirMode [([98], .file [] fileMode), ([117], .link (.ofString ".."))])]
    let d : NamableDisk := ⟨⟨⟨.under [[119], [100]] n, []⟩, by decide +kernel⟩, by decide +kernel⟩
    let root := Place.path [[119], [100]]
    (∀ (_ : Path) (es : List (Name × Node)), es.reverse.Perm es) ∧
      Search.Ends d (fun _ es => es.reverse) ⟨{}, [root]⟩
        (.ok (insertAll {} [.ofString "/w/d/a", .ofString "/w/d/l", .ofString "/w/d/s/b", .ofString "/w/d/s/u"])) := by
  intro n d root
  have hlookup : d.lookup true root = .ok n := lookup_under (fun _ => Node.noConfusion) true
  have harrange : ∀ (_ : Path) (es : List (Name × Node)), es.reverse.Perm es := fun _ es => es.reverse_perm
  obtain ⟨-, o, hends, -, hsame⟩ := isScanned_search (d := d) root (fun _ es => es.reverse) harrange
  have hscan : (scan d root).toOption =
      some (insertAll {} [.ofString "/w/d/a", .ofString "/w/d/l", .ofString "/w/d/s/b", .ofString "/w/d/s/u"]) := by
    rw [scan, hlookup]
    decide +kernel
  refine ⟨harrange, (hends _).mpr ?_⟩
  rw [hscan] at hsame
  cases o with
  | error f => cases hsame
  | ok k => exact congrArg Except.ok (Option.some.inj hsame).symm

end KnownFiles

end WarmCheck

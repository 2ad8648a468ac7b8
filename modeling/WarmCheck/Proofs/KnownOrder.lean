import Mathlib.Data.List.Lex
import Mathlib.Data.List.Sort
import WarmCheck.KnownFiles

/-!
# Known files in order

Known files are kept in the order of paths, in which a path is followed at once by all that is below it. So what
is at or below a path can be dropped as one stretch.

* `KnownFiles.mem_place`, `KnownFiles.pairwise_place`: a path put in its place.
* `KnownFiles.exists_stretch`: what is at or below a path is one stretch.
* **`KnownFiles.forget_eq`**: exactly what is at or below a path is dropped, and counted.
* **`KnownFiles.forgetsBelow_of_isOrdered`**: what forgetting a path amounts to.
* `KnownFiles.observe_vanished_iff`, `KnownFiles.observeAll_vanished_iff`: files are counted as vanished exactly
  when some are forgotten.
-/

namespace WarmCheck

theorem Component.key_injective : Function.Injective Component.key := by
  intro a b h
  cases a with
  | root | here | parent => cases b <;> simp_all [key]
  | name bs =>
    cases b with
    | root | here | parent => simp [key] at h
    | name bs' =>
      simp only [key, List.cons.injEq, true_and] at h
      exact congrArg name (List.map_injective_iff.mpr (fun _ _ => UInt8.toNat_inj.mp) h)

namespace KnownFiles

/-! ## The order of paths -/

theorem before_iff {p q : List Component} : before p q = true ↔ p.map Component.key < q.map Component.key :=
  decide_eq_true_iff

theorem map_key_injective : Function.Injective (List.map Component.key) :=
  List.map_injective_iff.mpr Component.key_injective

/-- What lies between a list and one that it begins begins with it as well. -/
theorem prefix_of_between {p q r : List (List Nat)} (hpr : p <+: r) (hpq : ¬q < p)
    (hqr : q < r) : p <+: q := by
  induction p generalizing q r with
  | nil => exact List.nil_prefix
  | cons a p ih =>
    obtain ⟨s, rfl⟩ := hpr
    cases q with
    | nil => exact absurd (List.nil_lt_cons a p) hpq
    | cons b q =>
      rw [List.cons_append, List.cons_lt_cons_iff] at hqr
      rw [List.cons_lt_cons_iff, not_or, not_and] at hpq
      obtain rfl : b = a := by
        rcases hqr with hlt | ⟨heq, -⟩
        · exact absurd hlt hpq.1
        · exact heq
      have hlater : q < p ++ s := by
        rcases hqr with hlt | ⟨-, hlt⟩
        · exact absurd hlt (lt_irrefl b)
        · exact hlt
      exact List.cons_prefix_cons.mpr ⟨rfl, ih (List.prefix_append p s) (hpq.2 rfl) hlater⟩

theorem before_trans {p q r : List Component} (hpq : before p q = true) (hqr : before q r = true) :
    before p r = true :=
  before_iff.mpr (lt_trans (before_iff.mp hpq) (before_iff.mp hqr))

theorem before_total {p q : List Component} (hpq : before p q ≠ true) (hne : q ≠ p) : before q p = true := by
  rw [Ne, before_iff] at hpq
  rw [before_iff]
  exact lt_of_le_of_ne (not_lt.mp hpq) fun h => hne (map_key_injective h)

/-- What is at or below a path does not come before it. -/
theorem not_before_of_prefix {p q : List Component} (h : p <+: q) : before q p ≠ true := by
  rw [Ne, before_iff]
  exact (h.map Component.key).le

theorem prefix_of_before {p q r : List Component} (hpr : p <+: r) (hpq : before q p ≠ true)
    (hqr : before q r = true) : p <+: q := by
  rw [Ne, before_iff] at hpq
  have hkeys := prefix_of_between (hpr.map Component.key) hpq (before_iff.mp hqr)
  obtain ⟨p', hp', heq⟩ := List.prefix_map_iff.mp hkeys
  rwa [map_key_injective heq]

/-! ## Putting in place -/

theorem mem_place {e p : List Component} {fs : List (List Component)} :
    e ∈ place p fs ↔ e = p ∨ e ∈ fs := by
  induction fs with
  | nil => simp [place]
  | cons q fs ih =>
    rw [place]
    split_ifs with heq hbefore
    · subst heq
      simp
    · simp
    · rw [List.mem_cons, ih, List.mem_cons, or_left_comm]

theorem pairwise_place (p : List Component) {fs : List (List Component)}
    (h : fs.Pairwise (before · · = true)) : (place p fs).Pairwise (before · · = true) := by
  induction fs with
  | nil => simp [place]
  | cons q fs ih =>
    rw [place]
    rw [List.pairwise_cons] at h
    split_ifs with heq hbefore
    · exact List.pairwise_cons.mpr h
    · refine List.pairwise_cons.mpr ⟨fun r hr => ?_, List.pairwise_cons.mpr h⟩
      rcases List.mem_cons.mp hr with rfl | hr
      · exact hbefore
      · exact before_trans hbefore (h.1 r hr)
    · refine List.pairwise_cons.mpr ⟨fun r hr => ?_, ih h.2⟩
      rcases mem_place.mp hr with rfl | hr
      · exact before_total hbefore heq
      · exact h.1 r hr

theorem mem_foldl_place {e : List Component} {new fs : List (List Component)} :
    e ∈ new.foldl (fun fs f => place f fs) fs ↔ e ∈ new ∨ e ∈ fs := by
  induction new generalizing fs with
  | nil => simp
  | cons p new ih => rw [List.foldl_cons, ih, mem_place, List.mem_cons, or_left_comm, or_assoc]

theorem pairwise_foldl_place (new : List (List Component)) {fs : List (List Component)}
    (h : fs.Pairwise (before · · = true)) :
    (new.foldl (fun fs f => place f fs) fs).Pairwise (before · · = true) := by
  induction new generalizing fs with
  | nil => exact h
  | cons p new ih => exact ih (pairwise_place p h)

theorem files_insertAll (k : KnownFiles) (ps : List Path) :
    (k.insertAll ps).files = (ps.map Path.components).foldl (fun fs f => place f fs) k.files := by
  induction ps generalizing k with
  | nil => rfl
  | cons p ps ih => exact ih (k.insert p)

theorem IsOrdered.insertAll {k : KnownFiles} (h : k.IsOrdered) (ps : List Path) : (k.insertAll ps).IsOrdered := by
  rw [IsOrdered, files_insertAll]
  exact pairwise_foldl_place _ h

theorem isOrdered_scan {d : Disk} {root : Path} {k : KnownFiles} (h : scan d root = .ok k) : k.IsOrdered := by
  have hnone : IsOrdered {} := List.Pairwise.nil
  rw [scan] at h
  split at h
  · next mode es _ =>
    cases hlisting : checkListing true root mode with
    | error f => rw [hlisting] at h; cases h
    | ok =>
      cases hpaths : filesIn (Disk.may 1 mode) root es with
      | error f => rw [hlisting, hpaths] at h; cases h
      | ok paths =>
        rw [hlisting, hpaths] at h
        cases h
        exact hnone.insertAll paths
  · cases h
  · cases h
    exact hnone
  · cases h

/-- Files that are kept in order are the same if they have the same members. -/
theorem IsOrdered.eq_of_mem_iff {k k' : KnownFiles} (h : k.IsOrdered) (h' : k'.IsOrdered)
    (hmem : ∀ e, e ∈ k.files ↔ e ∈ k'.files) : k = k' := by
  have : Std.Irrefl fun p q => before p q = true := ⟨fun p hp => lt_irrefl _ (before_iff.mp hp)⟩
  have : Std.Antisymm fun p q => before p q = true :=
    ⟨fun p q hpq hqp => absurd (before_iff.mp hpq) (before_iff.mp hqp).not_gt⟩
  exact congrArg mk (List.Pairwise.eq_of_mem_iff h h' hmem)

/-! ## Forgetting -/

theorem not_before_of_mem_dropWhile {p q : List Component} {fs : List (List Component)}
    (h : fs.Pairwise (before · · = true)) (hq : q ∈ fs.dropWhile (before · p)) : before q p ≠ true := by
  induction fs with
  | nil => cases hq
  | cons r fs ih =>
    rw [List.pairwise_cons] at h
    rw [List.dropWhile_cons] at hq
    split at hq
    · exact ih h.2 hq
    · next hr =>
      rcases List.mem_cons.mp hq with rfl | hq
      · exact hr
      · exact fun hqp => hr (before_trans (h.1 q hq) hqp)

/-- Of ordered paths none of which comes before a path, those at or below it come first. -/
theorem dropWhile_under {p : List Component} {fs : List (List Component)}
    (h : fs.Pairwise (before · · = true)) (hfs : ∀ q ∈ fs, before q p ≠ true) :
    fs.dropWhile (p.isPrefixOf ·) = fs.filter (!p.isPrefixOf ·) := by
  induction fs with
  | nil => rfl
  | cons q fs ih =>
    rw [List.pairwise_cons] at h
    by_cases hq : p.isPrefixOf q = true
    · rw [List.dropWhile_cons_of_pos hq, List.filter_cons_of_neg (by rw [hq]; exact Bool.false_ne_true)]
      exact ih h.2 fun r hr => hfs r (List.mem_cons_of_mem q hr)
    · -- what is below the path would come before what is not
      have hnone : ∀ r ∈ q :: fs, (!p.isPrefixOf r) = true := by
        intro r hr
        rw [Bool.not_eq_true', Bool.eq_false_iff]
        rcases List.mem_cons.mp hr with rfl | hr
        · exact hq
        · intro hpr
          rw [List.isPrefixOf_iff_prefix] at hq hpr
          exact hq (prefix_of_before hpr (hfs q List.mem_cons_self) (h.1 r hr))
      rw [List.dropWhile_cons_of_neg hq, List.filter_eq_self.mpr hnone]

/-- Ordered paths fall into those that come before a path, those at or below it, and those that come after. The
second of the three is what is forgotten. -/
theorem exists_stretch {k : KnownFiles} (h : k.IsOrdered) (p : Path) :
    ∃ earlier under later, k.files = earlier ++ under ++ later ∧ k.forget p = (⟨earlier ++ later⟩, under.length) ∧
      (∀ e ∈ earlier, before e p.components = true) ∧
      (∀ e ∈ under ++ later, before e p.components ≠ true) ∧
      (∀ e ∈ under, p.components <+: e) ∧ ∀ e ∈ later, ¬p.components <+: e := by
  set earlier := k.files.takeWhile (before · p.components) with hearlier
  set rest := k.files.dropWhile (before · p.components) with hrest
  set under := rest.takeWhile (p.components.isPrefixOf ·)
  set later := rest.dropWhile (p.components.isPrefixOf ·)
  have hsplit : rest = under ++ later := List.takeWhile_append_dropWhile.symm
  have hnot : ∀ e ∈ rest, before e p.components ≠ true := fun e => not_before_of_mem_dropWhile h
  have hdrop : later = rest.filter (!p.components.isPrefixOf ·) :=
    dropWhile_under (h.sublist (List.dropWhile_sublist _)) hnot
  refine ⟨earlier, under, later, ?_, ?_, fun e he => List.all_eq_true.mp List.all_takeWhile e he, ?_, fun e he => ?_,
    fun e he => ?_⟩
  · rw [List.append_assoc, ← hsplit, hearlier, hrest, List.takeWhile_append_dropWhile]
  · show (KnownFiles.mk (earlier ++ rest.drop under.length), under.length) = _
    rw [hsplit, List.drop_left]
  · rwa [← hsplit]
  · exact List.isPrefixOf_iff_prefix.mp (List.all_eq_true.mp List.all_takeWhile e he)
  · rw [hdrop, List.mem_filter, Bool.not_eq_true', ← Bool.not_eq_true, List.isPrefixOf_iff_prefix] at he
    exact he.2

/-- **Exactly what is at or below a path is dropped, and counted.** -/
theorem forget_eq {k : KnownFiles} (h : k.IsOrdered) (p : Path) :
    k.forget p =
      (⟨k.files.filter (!p.components.isPrefixOf ·)⟩, k.files.countP (p.components.isPrefixOf ·)) := by
  obtain ⟨earlier, under, later, hfiles, hforget, hbefore, -, hbelow, hnot⟩ := exists_stretch h p
  have hearlier : ∀ e ∈ earlier, p.components.isPrefixOf e = false := fun e he => by
    rw [← Bool.not_eq_true, List.isPrefixOf_iff_prefix]
    exact fun hpe => not_before_of_prefix hpe (hbefore e he)
  have hunder : ∀ e ∈ under, p.components.isPrefixOf e = true := fun e he =>
    List.isPrefixOf_iff_prefix.mpr (hbelow e he)
  have hlater : ∀ e ∈ later, p.components.isPrefixOf e = false := fun e he => by
    rw [← Bool.not_eq_true, List.isPrefixOf_iff_prefix]
    exact hnot e he
  have hkept : k.files.filter (!p.components.isPrefixOf ·) = earlier ++ later := by
    rw [hfiles, List.filter_append, List.filter_append, List.filter_eq_self.mpr fun e he => by rw [hearlier e he]; rfl,
      List.filter_eq_nil_iff.mpr fun e he => by simp [hunder e he],
      List.filter_eq_self.mpr fun e he => by rw [hlater e he]; rfl, List.append_nil]
  have hcount : k.files.countP (p.components.isPrefixOf ·) = under.length := by
    rw [hfiles, List.countP_append, List.countP_append,
      List.countP_eq_zero.mpr fun e he => Bool.eq_false_iff.mp (hearlier e he), List.countP_eq_length.mpr hunder,
      List.countP_eq_zero.mpr fun e he => Bool.eq_false_iff.mp (hlater e he), Nat.zero_add, Nat.add_zero]
  rw [hforget, hkept, hcount]

/-- What forgetting a path amounts to: what is at or below the path is one stretch of the ordered files, which begins
with the first that does not come before the path. This stretch is dropped and counted, and all else is kept. -/
structure ForgetsBelow (k : KnownFiles) (p : Path) : Prop where
  mem_iff : ∀ e, e ∈ (k.forget p).1.files ↔ e ∈ k.files ∧ ¬p.components <+: e
  isOrdered : (k.forget p).1.IsOrdered
  count : (k.forget p).2 = (k.files.filter (p.components.isPrefixOf ·)).length
  stretch : ∃ earlier under later, k.files = earlier ++ under ++ later ∧
    k.forget p = (⟨earlier ++ later⟩, under.length) ∧ (∀ e ∈ earlier, before e p.components = true) ∧
    (∀ e ∈ under ++ later, before e p.components ≠ true) ∧
    (∀ e ∈ under, p.components <+: e) ∧ ∀ e ∈ later, ¬p.components <+: e

/-- **Forgetting a path drops a subtree and nothing else**, whatever the names beside it are. -/
theorem forgetsBelow_of_isOrdered {k : KnownFiles} (h : k.IsOrdered) (p : Path) : k.ForgetsBelow p where
  mem_iff e := by
    rw [forget_eq h, List.mem_filter, Bool.not_eq_true', ← Bool.not_eq_true, List.isPrefixOf_iff_prefix]
  isOrdered := by
    rw [forget_eq h]
    exact h.filter _
  count := by rw [forget_eq h, List.countP_eq_length_filter]
  stretch := exists_stretch h p

/-- Names that go on where the last name of the path ends, with octets before and after the slash. -/
theorem forgetsBelow_of_siblings :
    let k : KnownFiles := insertAll {} [.ofString "/w/gen0", .ofString "/w/gen/b/c", .ofString "/w/gen.ts",
      .ofString "/w/gen", .ofString "/w/gen-old/a", .ofString "/w/gen/a", .ofString "/w/ge"]
    let left : KnownFiles := insertAll {} [.ofString "/w/ge", .ofString "/w/gen-old/a", .ofString "/w/gen.ts",
      .ofString "/w/gen0"]
    k.IsOrdered ∧ k.ForgetsBelow (.ofString "/w/gen") ∧ k.forget (.ofString "/w/gen") = (left, 3) := by
  intro k left
  have hk : k.IsOrdered := by decide +kernel
  exact ⟨hk, forgetsBelow_of_isOrdered hk _, by decide +kernel⟩

/-! ## One path -/

/-- What is made of a path adds files, or forgets what is at and below it. -/
theorem observe_cases (k : KnownFiles) (d : Disk) (p : Path) :
    (∃ new : List (List Component), k.observe d p = (⟨new.foldl (fun fs f => place f fs) k.files⟩, 0)) ∨
      k.observe d p = k.forget p := by
  rw [observe]
  split
  · split
    · next found hfound => exact .inl ⟨found.files, rfl⟩
    · exact .inl ⟨[], rfl⟩
  · exact .inl ⟨[p.components], rfl⟩
  · exact .inr rfl

theorem IsOrdered.observe {k : KnownFiles} (h : k.IsOrdered) (d : Disk) (p : Path) :
    (k.observe d p).1.IsOrdered := by
  rcases observe_cases k d p with ⟨new, hnew⟩ | hforget
  · rw [hnew]
    exact pairwise_foldl_place new h
  · rw [hforget, forget_eq h]
    exact h.filter _

/-- Some file is counted as vanished exactly when some file is known no more. -/
theorem observe_vanished_iff {k : KnownFiles} (h : k.IsOrdered) (d : Disk) (p : Path) :
    0 < (k.observe d p).2 ↔ ∃ e ∈ k.files, e ∉ (k.observe d p).1.files := by
  rcases observe_cases k d p with ⟨new, hnew⟩ | hforget
  · rw [hnew]
    have hkept : ∀ e ∈ k.files, e ∈ new.foldl (fun fs f => place f fs) k.files := fun e he =>
      mem_foldl_place.mpr (.inr he)
    constructor
    · intro hpos
      exact absurd hpos (lt_irrefl 0)
    · rintro ⟨e, he, hlost⟩
      exact absurd (hkept e he) hlost
  · rw [hforget, forget_eq h]
    simp only [List.countP_pos_iff, List.mem_filter, Bool.not_eq_true', not_and, Bool.not_eq_false]
    exact ⟨fun ⟨e, he, hp⟩ => ⟨e, he, fun _ => hp⟩, fun ⟨e, he, hp⟩ => ⟨e, he, hp he⟩⟩

/-! ## Many paths -/

/-- Some file that is known when the turn of some path comes is not known after that. -/
def Forgets (k : KnownFiles) (d : Disk) (ps : List Path) : Prop :=
  ∃ before p after, ps = before ++ p :: after ∧
    ∃ e ∈ (k.observeAll d before).1.files, e ∉ ((k.observeAll d before).1.observe d p).1.files

theorem IsOrdered.observeAll {k : KnownFiles} (h : k.IsOrdered) (d : Disk) (ps : List Path) :
    (k.observeAll d ps).1.IsOrdered := by
  induction ps generalizing k with
  | nil => exact h
  | cons p ps ih => exact ih (h.observe d p)

theorem forgets_cons {k : KnownFiles} {d : Disk} {p : Path} {ps : List Path} :
    k.Forgets d (p :: ps) ↔ (∃ e ∈ k.files, e ∉ (k.observe d p).1.files) ∨ (k.observe d p).1.Forgets d ps := by
  constructor
  · rintro ⟨before, q, after, hps, hlost⟩
    cases before with
    | nil =>
      cases hps
      exact .inl hlost
    | cons r before =>
      cases hps
      exact .inr ⟨before, q, after, rfl, hlost⟩
  · rintro (hlost | ⟨before, q, after, rfl, hlost⟩)
    · exact ⟨[], p, ps, rfl, hlost⟩
    · exact ⟨p :: before, q, after, rfl, hlost⟩

/-- Some file is counted as vanished exactly when some file is forgotten. -/
theorem observeAll_vanished_iff {k : KnownFiles} (h : k.IsOrdered) (d : Disk) (ps : List Path) :
    0 < (k.observeAll d ps).2 ↔ k.Forgets d ps := by
  induction ps generalizing k with
  | nil =>
    constructor
    · intro hpos
      exact absurd hpos (lt_irrefl 0)
    · rintro ⟨before, p, after, hps, -⟩
      exact absurd hps (by simp)
  | cons p ps ih =>
    have hsum : (k.observeAll d (p :: ps)).2 = (k.observe d p).2 + ((k.observe d p).1.observeAll d ps).2 := rfl
    rw [hsum, Nat.add_pos_iff_pos_or_pos, observe_vanished_iff h, ih (h.observe d p), forgets_cons]

end KnownFiles

end WarmCheck

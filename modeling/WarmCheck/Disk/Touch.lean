import WarmCheck.Disk.Action

/-!
# Touches

What the actions of people and tools do to single places of the disk, as far as one who watches the
directories around can tell.

* `Touch`: one place that is touched.
* `Disk.touches`: all that an action touches, in order.
-/

namespace WarmCheck

/-- Something that happens to one place of the disk. -/
inductive Touch where
  | created (place : Place) (isDir : Bool)
  /-- The content of a file is set anew. -/
  | written (place : Place)
  /-- The mode is set. -/
  | marked (place : Place)
  /-- A file is opened and read. -/
  | seen (place : Place)
  | gone (place : Place) (isDir : Bool)
  | moved (place target : Place) (isDir : Bool)
  deriving DecidableEq, Repr

namespace Node

mutual

/-- A place and all places below it, what is in a directory before the directory, and which of them
are directories. -/
def placesAt (here : Place) : Node → List (Place × Bool)
  | .dir _ es => placesIn here es ++ [(here, true)]
  | .file .. | .link _ | .socket .. => [(here, false)]

/-- The places of the entries of the directory at a place, and all places below them. -/
def placesIn (here : Place) : List (Name × Node) → List (Place × Bool)
  | [] => []
  | (name, n) :: es => placesAt (here ++ [name]) n ++ placesIn here es

end

end Node

namespace Disk

/-- The places that `after` has along a path, and `d` does not. -/
def createdAlong (d after : Disk) (p : Path) : List Touch :=
  let places := p.parents.reverse.filterMap (after.place? true) ++
    [false, true].filterMap (after.place? · p)
  (places.eraseDups.filter fun place => (d.top.get? place).isNone).filterMap fun place =>
    (after.top.get? place).map fun n => .created place n.isDir

/-- The places at and below one that are gone with it. -/
def goneFrom (d : Disk) (place : Place) : List Touch :=
  match d.top.get? place with
  | some n => (n.placesAt place).map fun (q, isDir) => .gone q isDir
  | none => []

/-- What is written when a file gets content: a file that was there is emptied first, and nothing is
written to a new one if the content is empty. -/
def writtenBy (d after : Disk) (p : Path) (data : Bytes) (truncates : Bool) : List Touch :=
  match after.place? true p with
  | some place =>
    if data ≠ [] ∨ (truncates ∧ (d.top.get? place).isSome) then [.written place] else []
  | none => []

/-- The touch of the place that a path leads to. -/
def touchAt (d : Disk) (p : Path) (f : Place → Touch) : List Touch :=
  ((d.place? true p).map f).toList

/-- All that an action touches. An action that fails touches nothing. -/
def touches (d : Disk) (a : Action) : List Touch :=
  match d.act a with
  | .error _ => []
  | .ok after =>
    match a with
    | .write p data program =>
      d.createdAlong after p ++ d.writtenBy after p data true ++
        (if program then after.touchAt p .marked else [])
    | .append p data => d.createdAlong after p ++ d.writtenBy after p data false
    | .makeDirs p | .link p _ | .staleSocket p => d.createdAlong after p
    | .remove p | .removeTree p => ((d.place? false p).map d.goneFrom).getD []
    | .rename p q =>
      match d.find false p with
      | .ok (.node place n) =>
        ((after.place? false q).filter (· ≠ place)).toList.map (.moved place · n.isDir)
      | _ => []
    | .setMode p _ => d.touchAt p .marked
    | .read p => d.touchAt p .seen

end Disk

end WarmCheck

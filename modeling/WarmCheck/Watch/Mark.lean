import WarmCheck.Disk.Touch
import WarmCheck.Watch.Event

/-!
# Marks

For every place that somebody watches the system keeps a mark. It tells what happens to the marked
place and, if that is a directory, to its entries. A mark goes with its place, wherever that is moved,
and is gone when the place is gone.

* `Mark.tell`, `Mark.follow`: what is told of a touch, and the marks after it.
* `Mark.hear`: what is told of many touches.
-/

namespace WarmCheck.Watch

/-- A marked place. The owner of the mark is told of its end and of its moves if it has asked for
that. -/
structure Mark where
  id : Nat
  place : Place
  tellsEnd : Bool
  deriving DecidableEq, Repr

/-- What is told: by which mark, about which entry or about the marked place itself, and what has
happened there. -/
structure Notice where
  mark : Nat
  entry : Option Name
  kind : EventKind
  /-- What was there is not there any more. -/
  isLoss : Bool := false
  /-- A directory has come to be there. -/
  isNewDir : Bool := false
  deriving DecidableEq, Repr

namespace Mark

/-- By whom and as what a place is told of as an entry of its directory. -/
def asEntry (ms : List Mark) (place : Place) : List (Nat × Option Name) :=
  match place.getLast? with
  | some name => (ms.filter (·.place = place.dropLast)).map fun m => (m.id, some name)
  | none => []

/-- By whom a place is told of as a marked one. -/
def asSelf (ms : List Mark) (place : Place) : List (Nat × Option Name) :=
  (ms.filter (·.place = place)).map fun m => (m.id, none)

/-- By whom the end or a move of a place is told of as that of a marked one. -/
def asEnding (ms : List Mark) (place : Place) : List (Nat × Option Name) :=
  asSelf (ms.filter (·.tellsEnd)) place

/-- Notices of one kind. -/
def notices (kind : EventKind) (spots : List (Nat × Option Name)) (isLoss isNewDir : Bool) :
    List Notice :=
  spots.map fun (mark, entry) => { mark, entry, kind, isLoss, isNewDir }

/-- What is told of the end of a marked place. -/
def endOf (ms : List Mark) (place : Place) : List Notice :=
  notices .remove (asEnding ms place) true false

/-- What is told of a touch. -/
def tell (ms : List Mark) : Touch → List Notice
  | .created place isDir => notices .create (asEntry ms place) false isDir
  | .written place => notices .modifyData (asEntry ms place ++ asSelf ms place) false false
  | .marked place => notices .modifyMeta (asEntry ms place ++ asSelf ms place) false false
  | .seen place => notices .access (asEntry ms place ++ asSelf ms place) false false
  | .gone place isDir =>
    (if isDir then [] else notices .modifyMeta (asSelf ms place) false false) ++
      notices .remove (asEntry ms place) true false ++ endOf ms place
  | .moved place target isDir =>
    notices .modifyName (asEntry ms place) true false ++
      notices .modifyName (asEntry ms target) false isDir ++
      notices .modifyMeta (asSelf ms target) false false ++
      notices .modifyName (asEnding ms place) false false ++ endOf ms target

/-- Where a place is after it, or a directory that it is in, has moved. -/
def movedPlace (place target q : Place) : Place :=
  if place.isPrefixOf q then target ++ q.drop place.length else q

/-- The marks after a touch. -/
def follow (ms : List Mark) : Touch → List Mark
  | .gone place _ => ms.filter (·.place ≠ place)
  | .moved place target _ =>
    (ms.filter (·.place ≠ target)).map fun m => { m with place := movedPlace place target m.place }
  | _ => ms

/-- The marks after touches that follow one another, and all that is told. -/
def hear (ms : List Mark) : List Touch → List Mark × List Notice
  | [] => (ms, [])
  | t :: ts =>
    let (left, more) := hear (follow ms t) ts
    (left, tell ms t ++ more)

end Mark

end WarmCheck.Watch

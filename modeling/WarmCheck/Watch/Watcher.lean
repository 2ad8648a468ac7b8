import WarmCheck.Watch.Mark

/-!
# Watchers

A watcher knows by which path it has come to each of its marks, and reports changes under these paths.
A recursive watcher marks the directories at and below the one that it was asked to watch, through
symbolic links as well, and those that appear later, once it has been told of them. When one of its
paths is told to lead nowhere any more, it gives up the mark and all marks reported below that path.

* `Watcher.start`: a watcher of a path.
* `Watcher.notice`: what it reports when places are touched, and the watcher after that.
-/

namespace WarmCheck.Watch

/-- A path that is watched: the mark it has led to, and whether directories that appear there are
watched as well. -/
structure Watched where
  path : Path
  mark : Nat
  tellsEnd : Bool
  isRecursive : Bool
  deriving DecidableEq, Repr

/-- A watcher: its marks, the paths that it watches, the path under which each mark is reported, and
the number of the next mark. -/
structure Watcher where
  marks : List Mark := []
  watched : List Watched := []
  names : List (Nat × Path) := []
  fresh : Nat := 0
  deriving DecidableEq, Repr

namespace Watcher

/-- What is known of a path that is watched. -/
def watched? (w : Watcher) (p : Path) : Option Watched := w.watched.find? (·.path.same p)

/-- The path under which a mark is reported. -/
def name? (w : Watcher) (mark : Nat) : Option Path := w.names.lookup mark

/-! ## Beginning to watch -/

/-- With a mark at what a path leads to; `none` if the system refuses that. A place that is marked
already keeps its mark, which is reported under the new path from then on and tells of its end only if
it is asked for now, or was asked for under the same path. -/
def watch? (d : Disk) (w : Watcher) (p : Path) (isRecursive tellsEnd : Bool) : Option Watcher :=
  match d.find true p with
  | .ok (.node place n) =>
    if !Disk.may 4 n.mode then none
    else
      let old := w.watched? p
      let tellsEnd := tellsEnd || (old.map (·.tellsEnd)).getD false
      let mark : Mark :=
        match w.marks.find? (·.place = place) with
        | some m => { m with tellsEnd := tellsEnd || (old.isSome && m.tellsEnd) }
        | none => ⟨w.fresh, place, tellsEnd⟩
      some {
        marks := w.marks.filter (·.place ≠ place) ++ [mark]
        watched := w.watched.filter (!·.path.same p) ++ [⟨p, mark.id, tellsEnd, isRecursive⟩]
        names := (mark.id, p) :: w.names.filter (·.1 ≠ mark.id)
        fresh := max w.fresh (mark.id + 1) }
  | _ => none

/-- The paths of the directories at and below a place, down to a depth, each before those below it. A
link to a directory that it is in, seen from where the search has begun, is left alone. -/
def dirsFrom (d : Disk) : Nat → List Place → Place → Path → List Path
  | 0, _, _, _ => []
  | depth + 1, above, place, path =>
    match d.top.get? place with
    | some (.dir mode es) =>
      let above := place :: above
      path :: (if Disk.may 4 mode && Disk.may 1 mode then es else []).flatMap fun (name, n) =>
        match n with
        | .dir .. => dirsFrom d depth above (place ++ [name]) (path.child name)
        | .link _ =>
          match d.walk true Disk.maxLinks place [name] with
          | .ok (.node target (.dir ..)) =>
            if above.contains target then [] else dirsFrom d depth above target (path.child name)
          | _ => []
        | .file .. | .socket .. => []
    | _ => []

/-- The paths of the directories at and below a place that a path leads to. -/
def dirsAt (d : Disk) (place : Place) (path : Path) : List Path :=
  dirsFrom d ((d.top.placesAt []).length + 1) [] place path

/-- With marks at the directories that paths lead to, up to the first at which the system refuses it;
the flag tells whether there was none such. The end of the first is told of if that is asked for. -/
def watchAll (d : Disk) (w : Watcher) (tellsEnd : Bool) : List Path → Watcher × Bool
  | [] => (w, true)
  | p :: ps =>
    match w.watch? d p true tellsEnd with
    | some w => watchAll d w false ps
    | none => (w, false)

/-- With marks for a path, and whether the system has agreed. Something that is no directory is always
watched by itself, to its end. -/
def add (d : Disk) (w : Watcher) (isRecursive tellsEnd : Bool) (p : Path) : Watcher × Bool :=
  match d.find true p, isRecursive with
  | .ok (.node place (.dir ..)), true => w.watchAll d tellsEnd (dirsAt d place p)
  | _, _ =>
    match w.watch? d p false true with
    | some w => (w, true)
    | none => (w, false)

/-- The path that starts at the root. -/
def absolute (d : Disk) (p : Path) : Path := if p.isAbsolute then p else (Place.path d.cwd).join p

/-- A watcher of what a path leads to; `none` if the system refuses a part of it. -/
def start (d : Disk) (isRecursive : Bool) (p : Path) : Option Watcher :=
  match ({} : Watcher).add d isRecursive true (absolute d p) with
  | (w, true) => some w
  | (_, false) => none

/-! ## Being told -/

/-- The path that a notice is about. What is told by a mark that has been given up is not reported. -/
def path? (w : Watcher) (n : Notice) : Option Path :=
  (w.name? n.mark).map fun p =>
    match n.entry with
    | some name => p.child name
    | none => p

/-- What is reported of a notice. -/
def event? (w : Watcher) (n : Notice) : Option Event := (w.path? n).map fun p => ⟨n.kind, [p]⟩

/-- The watched paths that lead nowhere any more, going by notices. -/
def lostIn (w : Watcher) (ns : List Notice) : List Path :=
  (ns.filter (·.isLoss)).filterMap fun n => (w.path? n).filter fun p => (w.watched? p).isSome

/-- Whether new directories among the entries of a marked one are watched. -/
def isRecursiveAt (w : Watcher) (mark : Nat) : Bool :=
  match (w.name? mark).bind w.watched? with
  | some e => e.isRecursive
  | none => false

/-- The paths of directories that have appeared and are to be watched, going by notices. -/
def newIn (w : Watcher) (ns : List Notice) : List Path :=
  (ns.filter fun n => n.isNewDir && w.isRecursiveAt n.mark).filterMap w.path?

/-- Without a path. Unless its mark is gone already, it is given up, and with it all marks that are
reported at or below the path. -/
def remove (w : Watcher) (p : Path) : Watcher :=
  match w.watched? p with
  | none => w
  | some e =>
    let w := { w with watched := w.watched.filter (!·.path.same p) }
    if w.marks.any (·.id = e.mark) then
      let under := w.names.filter fun (mark, q) => mark ≠ e.mark && q.isWithin p
      let isOver := fun mark => mark = e.mark || under.any (·.1 = mark)
      { w with
        marks := w.marks.filter (!isOver ·.id)
        watched := w.watched.filter fun v => under.all (!·.2.same v.path)
        names := w.names.filter (!isOver ·.1) }
    else w

/-- What a watcher reports of touches that follow one another closely, where `d` is the disk after
them. Only then does it give up what has gone, and watch what has appeared. -/
def notice (d : Disk) (w : Watcher) (ts : List Touch) : Watcher × List Event :=
  let (marks, ns) := Mark.hear w.marks ts
  let left := (w.lostIn ns).foldl remove { w with marks }
  ((w.newIn ns).foldl (fun w p => (w.add d true false p).1) left, ns.filterMap w.event?)

end Watcher

end WarmCheck.Watch

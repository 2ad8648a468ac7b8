import WarmCheck.Path

/-!
# Watch events

What the system tells about a change in a watched directory.
-/

namespace WarmCheck.Watch

/-- The kind of a change, as far as it matters to some watcher. -/
inductive EventKind where
  | any
  | other
  /-- Something was read, opened or closed. -/
  | access
  | create
  | remove
  | modifyAny
  | modifyOther
  /-- The content changed. -/
  | modifyData
  /-- Mode, owner or times changed. -/
  | modifyMeta
  /-- A rename, from or to the path. -/
  | modifyName
  deriving DecidableEq, Repr

namespace EventKind

/-- The kinds that come with files that appear or vanish. -/
def isRenameClass : EventKind → Bool
  | create | remove | modifyName => true
  | _ => false

end EventKind

/-- A change and the paths it is about. -/
structure Event where
  kind : EventKind
  paths : List Path
  deriving DecidableEq, Repr

namespace Event

/-- Whether the event tells of more than access. -/
def isChange (e : Event) : Bool := e.kind != .access

end Event

end WarmCheck.Watch

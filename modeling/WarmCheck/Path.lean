import WarmCheck.Text.Utf8
import WarmCheck.Text.Search

/-!
# Paths

A path is a list of octets. It is compared and ordered by its components, and its parent and its
ancestors keep the rest of the text as it was written.

* `Path.components`, `Path.key`: what a path means, and the order of paths.
* `Path.parent?`, `Path.ancestors`, `Path.fileName?`, `Path.join`.
-/

namespace WarmCheck

/-- A path as it is written. -/
structure Path where
  bytes : Bytes
  deriving DecidableEq, Repr

/-- A part of a path that matters. -/
inductive Component where
  /-- The leading slash. -/
  | root
  /-- A leading dot. -/
  | here
  /-- Two dots. -/
  | parent
  | name (bytes : Bytes)
  deriving DecidableEq, Repr

namespace Component

/-- The place of a component in the order: the root, a leading dot, two dots, then the names by
their octets. -/
def key : Component → List Nat
  | root => [0]
  | here => [1]
  | parent => [2]
  | name bs => 3 :: bs.map UInt8.toNat

end Component

namespace Path

/-- The separator octet. -/
def slash : UInt8 := 47

/-- The octet of a dot. -/
def dot : UInt8 := 46

/-- The path with these characters. -/
def ofString (s : String) : Path := ⟨Utf8.ofString s⟩

/-- The path for a reader, with U+FFFD for what is not UTF-8. -/
def display (p : Path) : String := String.ofList (Utf8.decodeLossy p.bytes)

/-- The path starts at the root. -/
def isAbsolute (p : Path) : Bool := p.bytes.head? == some slash

/-! ## Segments -/

/-- Pieces put together with slashes between them. -/
def glue (segs : List Bytes) : Bytes := [slash].intercalate segs

/-- How a path begins. -/
inductive Head where
  | root
  | here
  | none
  deriving DecidableEq, Repr

/-- The octets of a beginning. -/
def Head.bytes : Head → Bytes
  | root => [slash]
  | here => [dot]
  | none => []

/-- How the path begins, and the pieces after that. A leading dot counts as a beginning only if it
is a piece of its own. -/
def parts (p : Path) : Head × List Bytes :=
  match p.bytes with
  | 47 :: bs => (.root, List.splitOn slash bs)
  | [46] => (.here, [])
  | 46 :: 47 :: bs => (.here, List.splitOn slash (slash :: bs))
  | bs => (.none, List.splitOn slash bs)

/-- Empty pieces, and single dots, mean nothing. -/
def isIdle (seg : Bytes) : Bool := seg == [] || seg == [dot]

/-- The component for a piece that means something. -/
def componentOf (seg : Bytes) : Component := if seg == [dot, dot] then .parent else .name seg

/-- The parts of a path that matter, in order. -/
def components (p : Path) : List Component :=
  let (head, segs) := p.parts
  let rest := (segs.filter (!isIdle ·)).map componentOf
  match head with
  | .root => .root :: rest
  | .here => .here :: rest
  | .none => rest

/-- Whether two paths mean the same. -/
def same (p q : Path) : Bool := p.components == q.components

/-- Whether a path means the same as another or something below it. -/
def isWithin (p q : Path) : Bool := q.components.isPrefixOf p.components

/-- The place of a path in the order of paths. -/
def key (p : Path) : List (List Nat) := p.components.map Component.key

/-- The last component, if it is a name. -/
def fileName? (p : Path) : Option Bytes :=
  match p.components.getLast? with
  | some (.name bs) => some bs
  | _ => none

/-! ## Ancestors -/

/-- The paths above one that begins with `head` and goes on with pieces, given last first. -/
def above (head : Head) : List Bytes → List Path
  | [] =>
    match head with
    | .here => [⟨[]⟩]
    | .root | .none => []
  | seg :: segs =>
    if isIdle seg then above head segs
    else ⟨head.bytes ++ glue (segs.dropWhile isIdle).reverse⟩ :: above head segs

/-- The proper ancestors of a path, the nearest first. -/
def parents (p : Path) : List Path := above p.parts.1 p.parts.2.reverse

/-- The path without its last component; a path with nothing to remove has none. -/
def parent? (p : Path) : Option Path := p.parents.head?

/-- The path and its ancestors, the nearest first. -/
def ancestors (p : Path) : List Path := p :: p.parents

/-! ## Joining -/

/-- The path `q` seen from `p`; an absolute `q` stands for itself. -/
def join (p q : Path) : Path :=
  if q.isAbsolute then q
  else
    match p.bytes.getLast? with
    | none => q
    | some b => if b = slash then ⟨p.bytes ++ q.bytes⟩ else ⟨p.bytes ++ slash :: q.bytes⟩

/-- The path of an entry of `p`. -/
def child (p : Path) (name : Bytes) : Path := p.join ⟨name⟩

end Path

end WarmCheck

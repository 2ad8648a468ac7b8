import WarmCheck.Shell.Pattern
import WarmCheck.Disk.Walk

/-!
# Fields

What has been put in for a word is cut into fields, and fields that are patterns stand for the names of
files.

* `Glyph`, `fieldsOf`: a word after everything has been put in, and its fields.
* `pathnames`: the names of files that a field stands for.
-/

namespace WarmCheck.Shell

/-- A piece of a word after everything has been put in. -/
inductive Glyph where
  /-- A character; one that has been put in outside of quotes may separate fields. -/
  | char (c : Char) (isQuoted maySplit : Bool)
  /-- A pair of quotes with nothing in it, which make a field if nothing else does. -/
  | mark
  /-- The end of a field. -/
  | cut
  deriving DecidableEq, Repr

namespace Glyph

/-- A value that has been put in. -/
def ofValue (isQuoted : Bool) (cs : Chars) : List Glyph :=
  if isQuoted ∧ cs = [] then [mark] else cs.map (char · isQuoted !isQuoted)

/-- A text that stands in a word. -/
def ofText (isQuoted : Bool) (cs : Chars) : List Glyph :=
  if isQuoted ∧ cs = [] then [mark] else cs.map (char · isQuoted false)

/-- Several values, each a field of its own. -/
def ofValues (isQuoted : Bool) (vs : List Chars) : List Glyph :=
  [cut].intercalate (vs.map (ofValue isQuoted))

/-- The same piece put in for a parameter outside of quotes. -/
def putIn : Glyph → Glyph
  | char c false _ => char c false true
  | g => g

/-- The characters, where an end of a field is a space. -/
def text (gs : List Glyph) : Chars :=
  gs.filterMap fun g => match g with
    | char c _ _ => some c
    | mark => none
    | cut => some ' '

/-- The characters with whether they are quoted. -/
def marked (gs : List Glyph) : List (Char × Bool) :=
  gs.filterMap fun g => match g with
    | char c isQuoted _ => some (c, isQuoted)
    | mark | cut => none

end Glyph

/-! ## Splitting -/

/-- The characters that separate fields unless others are set. -/
def usualSeparators : Chars := [' ', '\t', '\n']

/-- Fields while they are made: the finished ones, the last first; the one that is open; and whether
the last has been ended by blanks alone. -/
structure Splitting where
  done : List (List (Char × Bool)) := []
  current : Option (List (Char × Bool)) := none
  isSpaced : Bool := false
  deriving DecidableEq, Repr

namespace Splitting

/-- With the open field finished. -/
def finish (s : Splitting) : Splitting := { s with done := s.current.toList ++ s.done, current := none }

/-- One more piece of a word. Blanks that separate count once, and not at all beside another
separator. -/
def step (separators : Chars) (s : Splitting) : Glyph → Splitting
  | .mark => { s with current := some (s.current.getD []), isSpaced := false }
  | .cut => { s.finish with isSpaced := false }
  | .char c isQuoted maySplit =>
    if maySplit && separators.contains c then
      if usualSeparators.contains c then { s.finish with isSpaced := s.isSpaced || s.current.isSome }
      else if s.current.isSome || s.isSpaced then { s.finish with isSpaced := false }
      else { s with done := [] :: s.done }
    else { s with current := some (s.current.getD [] ++ [(c, isQuoted)]), isSpaced := false }

end Splitting

/-- The fields of a word after everything has been put in. -/
def fieldsOf (separators : Chars) (gs : List Glyph) : List (List (Char × Bool)) :=
  (gs.foldl (Splitting.step separators) {}).finish.done.reverse

/-! ## Names of files -/

/-- What a part of a path stands for below a directory, whose path ends in a slash or is empty. Names
that begin with a dot are meant only by patterns that do. -/
def namesWithin (d : Disk) (part : List (Char × Bool)) (dir : Chars) : List Chars :=
  let p := Pattern.ofChars part
  if p.isPlain then [dir ++ part.map (·.1)]
  else
    match d.list (pathOf (if dir = [] then ['.'] else dir)) with
    | .ok es =>
      let names := [['.'], ['.', '.']] ++ es.map fun e => ofBytes e.1
      (names.filter fun n => p.accepts n && (n.head? != some '.' || p.head? == some (.char '.'))).map
        (dir ++ ·)
    | .error _ => []

/-- What the parts of a path stand for below directories. -/
def namesBelow (d : Disk) : List (List (Char × Bool)) → List Chars → List Chars
  | [], dirs => dirs
  | [part], dirs => dirs.flatMap (namesWithin d part)
  | part :: parts, dirs =>
    namesBelow d parts ((dirs.flatMap (namesWithin d part)).map (· ++ ['/']))

/-- A field cut at its slashes. -/
def partsOf (field : List (Char × Bool)) : List (List (Char × Bool)) :=
  field.foldr (fun c parts =>
    match parts with
    | p :: ps => if c.1 = '/' then [] :: p :: ps else (c :: p) :: ps
    | [] => [[c]]) [[]]

/-- The names of files that a field stands for, in order; the field itself if there are none. -/
def pathnames (d : Disk) (field : List (Char × Bool)) : List Chars :=
  let plain := field.map (·.1)
  if (Pattern.ofChars field).isPlain then [plain]
  else
    match (namesBelow d (partsOf field) [[]]).filter fun n => d.occupied (pathOf n) with
    | [] => [plain]
    | names => names.mergeSort fun a b => !decide (b < a)

end WarmCheck.Shell

import WarmCheck.Shell.Format
import WarmCheck.Shell.Regex
import WarmCheck.Shell.Utility.Files

/-!
# Utilities that read

* `Utility.eachContent`: something done with the contents of files.
* `Utility.extract`, `Utility.wc`, `Utility.tee`, `Utility.grep`, `Utility.sort`, `Utility.tr` and
  others.
-/

namespace WarmCheck.Shell.Utility

/-- The content of a file, or of standard input under the name of a dash. -/
def content (a : Chars) (s : State) : Except (State × Nat) (State × Bytes) :=
  if a = ['-'] then
    let bs := (s.read? 0).getD []
    .ok (s.consume 0 bs.length, bs)
  else
    match s.disk.read (pathOf a) with
    | .ok bs => .ok (s, bs)
    | .error e => .error (complain (a ++ ": ".toList ++ faultText e) 1 s)

/-- Something done with the content of each of some files, or of standard input if none is named. -/
def eachContent (f : Chars → Bytes → Action) (args : List Chars) : Action :=
  eachOf (fun a s =>
    match content a s with
    | .ok (s, bs) => f a bs s
    | .error failed => failed) (if args = [] then [['-']] else args)

/-- Lines with their ends. -/
def linesOf (bs : Bytes) : List Bytes :=
  let pieces := List.splitOn 10 bs
  (pieces.dropLast.map (· ++ [10])) ++ (pieces.getLast?.filter (· ≠ [])).toList

/-- A part of a content that is asked for: so many lines or octets, counted from this end, or all but
so many from the other end. -/
structure Extent where
  isOctets : Bool := false
  isRest : Bool := false
  count : Nat := 10
  deriving DecidableEq, Repr

/-- The extent that a number stands for, in which a sign turns the counting to the other end. For the
beginning of a content that sign is a dash, for its end it is a plus, before the first that is wanted. -/
def Extent.of (isHead isOctets : Bool) : Chars → Extent
  | '-' :: n => { isOctets, isRest := isHead, count := (natural? n).getD 10 }
  | '+' :: n => { isOctets, isRest := !isHead, count := (natural? n).getD 1 - if isHead then 0 else 1 }
  | n => { isOctets, count := (natural? n).getD 10 }

/-- The extent that `head` or `tail` is asked for, and the files. -/
def Extent.read (isHead : Bool) : List Chars → Extent × List Chars
  | ['-', 'n'] :: n :: args => (of isHead false n, args)
  | ['-', 'c'] :: n :: args => (of isHead true n, args)
  | ('-' :: 'n' :: n) :: args => (of isHead false n, args)
  | ('-' :: 'c' :: n) :: args => (of isHead true n, args)
  | ('-' :: c :: n) :: args => (of isHead false (c :: n), args)
  | args => ({}, args)

/-- So many pieces at the beginning, or all but so many at the end. -/
def Extent.takeHead {α : Type} (e : Extent) (xs : List α) : List α :=
  xs.take (if e.isRest then xs.length - e.count else e.count)

/-- So many pieces at the end, or all but so many at the beginning. -/
def Extent.takeTail {α : Type} (e : Extent) (xs : List α) : List α :=
  xs.drop (if e.isRest then e.count else xs.length - e.count)

/-- Print the beginning or the end of contents. -/
def extract (isHead : Bool) (args : List Chars) : Action :=
  let (e, files) := Extent.read isHead args
  let taken : Bytes → Bytes := fun bs =>
    match isHead, e.isOctets with
    | true, true => e.takeHead bs
    | true, false => (e.takeHead (linesOf bs)).flatten
    | false, true => e.takeTail bs
    | false, false => (e.takeTail (linesOf bs)).flatten
  eachContent (fun _ bs s => s.say (ofBytes (taken bs))) files

/-- A text made so wide by spaces in front of it. -/
def rightAligned (width : Nat) (cs : Chars) : Chars := List.replicate (width - cs.length) ' ' ++ cs

/-- Print contents, where lines may be numbered. -/
def cat (letters : List Char) (args : List Chars) : Action := fun s =>
  let numbered := fun (bs : Bytes) => ((linesOf bs).zipIdx 1).flatMap fun (l, n) =>
    rightAligned 6 (decimal n) ++ '\t' :: ofBytes l
  eachContent (fun _ bs s =>
    if letters.contains 'n' then s.say (numbered bs) else ((s.write? 1 bs).getD s, 0)) args s

/-- Count lines, words and octets. Several counts stand in columns. -/
def wc (letters : List Char) (args : List Chars) : Action :=
  eachContent (fun a bs s =>
    let words := (List.splitOn 32 (bs.map fun b => if b = 9 ∨ b = 10 then 32 else b)).filter (· ≠ [])
    let counts := [('l', bs.countP (· = 10)), ('w', words.length), ('c', bs.length)]
    let wanted := counts.filter fun c => letters = [] || letters.contains c.1
    let name := if a = ['-'] then [] else ' ' :: a
    let width := if wanted.length = 1 then 0 else if args = [] then 7 else (decimal bs.length).length
    s.say (joined [' '] (wanted.map fun c => rightAligned width (decimal c.2)) ++ name ++ ['\n'])) args

/-- Copy standard input to files as well. -/
def tee (letters : List Char) (args : List Chars) : Action := fun s =>
  let bs := (s.read? 0).getD []
  let (s, status) := eachOf (fun a => change a fun d =>
    if letters.contains 'a' then d.appendFile (pathOf a) bs else d.writeFile (pathOf a) bs) args
    (s.consume 0 bs.length)
  ((s.write? 1 bs).getD s, status)

/-- The lines of all of some files, or of standard input if none is named, without their ends. -/
def allLines (args : List Chars) (s : State) : State × Nat × List Chars :=
  (if args = [] then [['-']] else args).foldl (fun (s, status, ls) a =>
    match content a s with
    | .ok (s, bs) => (s, status, ls ++ (linesOf bs).map fun l => dropLineEnds (ofBytes l))
    | .error (s, n) => (s, max status n, ls)) (s, 0, [])

/-- Print lines with their ends. -/
def sayLines (ls : List Chars) (status : Nat) : Action := fun s =>
  let (s, n) := s.say (ls.flatMap (· ++ ['\n']))
  (s, max n status)

/-- The lines in which an expression stands for something, or those in which it does not. -/
def grep (letters : List Char) (args : List Chars) : Action := fun s =>
  match args with
  | [] => misuseUsage "grep [OPTION]... PATTERNS [FILE]..." 2 s
  | pattern :: files =>
    let folded := fun (cs : Chars) => if letters.contains 'i' then cs.map Char.toLower else cs
    let expression : Regex := if letters.contains 'F' then
        { parts := (folded pattern).map fun c => (.char c, false) }
      else .ofChars (folded pattern)
    let expression := if letters.contains 'x' then
        { expression with isAtStart := true, isAtEnd := true }
      else expression
    let (s, status, ls) := allLines files s
    let found := (ls.zipIdx 1).filter fun l =>
      (expression.search? (folded l.1)).isSome != letters.contains 'v'
    let found := found.map fun (l, n) => if letters.contains 'n' then decimal n ++ ':' :: l else l
    let status := if 0 < status then 2 else statusOf !found.isEmpty
    if letters.contains 'q' then (s, if found.isEmpty then status else 0)
    else if letters.contains 'c' then sayLines [decimal found.length] status s
    else if letters.contains 'l' then sayLines (if found.isEmpty then [] else files.take 1) status s
    else sayLines found status s

/-- Lines in order. -/
def sort (letters : List Char) (args : List Chars) : Action := fun s =>
  let (s, status, ls) := allLines args s
  let key := fun (l : Chars) => (integer? ((l.dropWhile (· = ' ')).takeWhile fun c =>
    c.isDigit || c == '-')).getD 0
  let before := fun (a b : Chars) =>
    if letters.contains 'n' ∧ key a ≠ key b then decide (key a < key b) else !decide (b < a)
  let ls := ls.mergeSort before
  let ls := if letters.contains 'u' then ls.eraseDups else ls
  sayLines (if letters.contains 'r' then ls.reverse else ls) (if 0 < status then 2 else 0) s

/-- Lines in runs of the same, with their lengths. -/
def runsOf (ls : List Chars) : List (Chars × Nat) :=
  ls.foldr (fun l runs =>
    match runs with
    | (k, n) :: more => if k = l then (k, n + 1) :: more else (l, 1) :: runs
    | [] => [(l, 1)]) []

/-- One line of each run, with the length of the run if that is asked for. -/
def uniq (letters : List Char) (args : List Chars) : Action := fun s =>
  let (s, status, ls) := allLines args s
  let kept := (runsOf ls).filter fun (_, n) =>
    if letters.contains 'd' then 1 < n else if letters.contains 'u' then n = 1 else true
  sayLines (kept.map fun (l, n) =>
    if letters.contains 'c' then rightAligned 7 (decimal n) ++ ' ' :: l else l) status s

/-- The positions in a list such as `1,3-5`, of which an end may be missing. -/
def isListed (spec : Chars) (n : Nat) : Bool :=
  (List.splitOn ',' spec).any fun range =>
    match List.splitOn '-' range with
    | [one] => natural? one == some n
    | [first, last] => (natural? first).getD 1 ≤ n && n ≤ (natural? last).getD n
    | _ => false

/-- The pieces of a list at listed positions. -/
def listed {α : Type} (spec : Chars) (xs : List α) : List α :=
  ((xs.zipIdx 1).filter fun x => isListed spec x.2).map (·.1)

/-- How lines are cut: into fields at a character, or into characters, and which of them are kept. -/
structure Cut where
  separator : Char := '\t'
  isFields : Bool := true
  kept : Chars := []
  deriving DecidableEq, Repr

/-- What `cut` is asked for, and the files. -/
def Cut.read (c : Cut) : List Chars → Cut × List Chars
  | ['-', 'd'] :: d :: args => read { c with separator := d.head?.getD '\t' } args
  | ['-', 'f'] :: f :: args => read { c with kept := f, isFields := true } args
  | ['-', 'c'] :: f :: args | ['-', 'b'] :: f :: args => read { c with kept := f, isFields := false } args
  | ('-' :: 'd' :: d) :: args => read { c with separator := d.head?.getD '\t' } args
  | ('-' :: 'f' :: f) :: args => read { c with kept := f, isFields := true } args
  | ('-' :: 'c' :: f) :: args | ('-' :: 'b' :: f) :: args =>
    read { c with kept := f, isFields := false } args
  | args => (c, args)

/-- What is kept of a line. A line without a separator is kept whole. -/
def Cut.line (c : Cut) (l : Chars) : Chars :=
  if !c.isFields then listed c.kept l
  else if l.contains c.separator then joined [c.separator] (listed c.kept (List.splitOn c.separator l))
  else l

/-- Parts of lines. -/
def cut (args : List Chars) : Action := fun s =>
  let (c, files) := Cut.read {} args
  if c.kept = [] then
    misuse "you must specify a list of bytes, characters, or fields".toList 1 s
  else
    let (s, status, ls) := allLines files s
    sayLines (ls.map c.line) status s

/-- The same line again and again, as far as anybody may want to read. -/
def yes (args : List Chars) : Action := fun s =>
  let line := (if args = [] then ['y'] else joined [' '] args) ++ ['\n']
  s.say (List.replicate (0x10000 / line.length) line).flatten

/-- The characters of a set, in which a dash between two stands for all from the one to the other. -/
def members : Chars → Chars
  | a :: '-' :: b :: cs =>
    (List.range (b.toNat + 1 - a.toNat)).map (fun i => Char.ofNat (a.toNat + i)) ++ members cs
  | c :: cs => c :: members cs
  | [] => []

/-- Runs of a character that is among some become one. -/
def squeezed (isMember : Char → Bool) (cs : Chars) : Chars :=
  cs.foldr (fun c out => if out.head? = some c ∧ isMember c then out else c :: out) []

/-- Characters replaced by others, left out, or written once for a run. -/
def tr (letters : List Char) (args : List Chars) : Action := fun s =>
  let bs := (s.read? 0).getD []
  let s := s.consume 0 bs.length
  let cs := ofBytes bs
  let isOther := letters.contains 'c' || letters.contains 'C'
  match args.map fun a => members (unescape a).1 with
  | [set] =>
    let isMember := fun c => set.contains c != isOther
    if letters.contains 'd' then s.say (cs.filter (!isMember ·))
    else if letters.contains 's' then s.say (squeezed isMember cs)
    else misuse ("missing operand after ".toList ++ args.flatten) 1 s
  | [source, target] =>
    let last := target.getLast?.getD ' '
    let replaced := cs.map fun c =>
      if isOther then if source.contains c then c else last
      else
        match source.idxOf? c with
        | some i => target[i]?.getD last
        | none => c
    s.say (if letters.contains 's' then squeezed target.contains replaced else replaced)
  | _ => misuse "missing operand".toList 1 s

end WarmCheck.Shell.Utility

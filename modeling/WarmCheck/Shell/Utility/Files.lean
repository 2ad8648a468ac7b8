import WarmCheck.Disk.Action
import WarmCheck.Shell.Arithmetic
import WarmCheck.Shell.Utility.Basic

/-!
# Utilities that work on files

* `Utility.touch`, `Utility.rm`, `Utility.mkdir`, `Utility.cp`, `Utility.chmod`, `Utility.ls` and others.
-/

namespace WarmCheck.Shell.Utility

/-- Change the disk, or complain about it. -/
def change (what : Chars) (f : Disk → Except Fault Disk) : Action := fun s =>
  match f s.disk with
  | .ok disk => ({ s with disk }, 0)
  | .error e => complain (what ++ ": ".toList ++ faultText e) 1 s

/-- A text in quotes. -/
def inQuotes (cs : Chars) : Chars := '\'' :: cs ++ ['\'']

/-- Where a file goes that is moved or copied: into a directory, or to another name. -/
def destination (d : Disk) (source target : Chars) : Path :=
  let p := pathOf target
  match d.isDir p, (pathOf source).fileName? with
  | true, some name => p.child name
  | _, _ => p

/-- The files named by all arguments but the last, and the last. -/
def sources? (args : List Chars) : Option (List Chars × Chars) :=
  match args.dropLast, args.getLast? with
  | [], _ | _, none => none
  | ss, some t => some (ss, t)

/-- Make a file unless it is there. -/
def touch : Chars → Action := fun a s =>
  let p := pathOf a
  if s.disk.reaches p then (s, 0)
  else change ("cannot touch ".toList ++ inQuotes a) (·.writeFile p []) s

/-- Take files away, or trees. -/
def rm (letters : List Char) : Chars → Action := fun a s =>
  let p := pathOf a
  let isAll := letters.contains 'r' || letters.contains 'R'
  if !s.disk.occupied p ∧ letters.contains 'f' then (s, 0)
  else
    change ("cannot remove ".toList ++ inQuotes a)
      (fun d => if isAll then d.removeTree p else d.remove p) s

/-- Take an empty directory away. -/
def rmdir : Chars → Action := fun a =>
  change ("failed to remove ".toList ++ inQuotes a) fun d => do
    match ← d.lookup false (pathOf a) with
    | .dir _ [] => d.removeTree (pathOf a)
    | .dir .. => .error (.os .notEmpty)
    | _ => .error (.os .notDirectory)

/-- Make a directory, or with it those above it. -/
def mkdir (letters : List Char) : Chars → Action := fun a =>
  change ("cannot create directory ".toList ++ inQuotes a) fun d =>
    if letters.contains 'p' then d.createDirs (pathOf a) else d.createDir (pathOf a)

/-- An action on something that is there. -/
def existing (a : Chars) (f : Action) : Action := fun s =>
  match s.disk.lookup false (pathOf a) with
  | .ok _ => f s
  | .error e => complain ("cannot stat ".toList ++ inQuotes a ++ ": ".toList ++ faultText e) 1 s

/-- Give a file another name. -/
def mv (target : Chars) : Chars → Action := fun a =>
  existing a <| change ("cannot move ".toList ++ inQuotes a ++ " to ".toList ++ inQuotes target) fun d =>
    d.rename (pathOf a) (destination d a target)

/-- Copy a file with its mode, or a tree. -/
def copy (isTree : Bool) (d : Disk) (p q : Path) : Except Fault Disk := do
  match ← d.lookup true p with
  | .file data mode =>
    if !Disk.may 4 mode then .error (.os .accessDenied)
    let isNew := !d.reaches q
    let d ← d.writeFile q data
    if isNew then d.setMode q mode else return d
  | n => if isTree ∧ n.isDir then d.create q n else .error (.os .isDirectory)

/-- Copy a file, or a tree. -/
def cp (letters : List Char) (target : Chars) : Chars → Action := fun a => existing a fun s =>
  let isTree := letters.any ['r', 'R', 'a'].contains
  if s.disk.isDir (pathOf a) ∧ !isTree then
    complain ("-r not specified; omitting directory ".toList ++ inQuotes a) 1 s
  else
    change ("cannot copy ".toList ++ inQuotes a) (fun d =>
      copy isTree d (pathOf a) (destination d a target)) s

/-- Make a symbolic link, or the same file under another name. -/
def ln (letters : List Char) (target : Chars) : Chars → Action := fun a =>
  let kind := if letters.contains 's' then "symbolic" else "hard"
  change ("failed to create ".toList ++ kind.toList ++ " link ".toList ++ inQuotes target) fun d => do
    let q := destination d a target
    let d := if letters.contains 'f' then (d.remove q).toOption.getD d else d
    if letters.contains 's' then d.createLink q (pathOf a)
    else d.create q (← d.lookup false (pathOf a))

/-- The bits of a mode that letters stand for, of all users or of the one that they name. -/
def bitsOf (who what : Chars) : Nat :=
  let right := (if what.contains 'r' then 4 else 0) + (if what.contains 'w' then 2 else 0) +
    (if what.contains 'x' then 1 else 0)
  let isAll := who = [] || who.contains 'a'
  (if isAll || who.contains 'u' then right * 64 else 0) +
    (if isAll || who.contains 'g' then right * 8 else 0) +
    (if isAll || who.contains 'o' then right else 0)

/-- A mode changed as a text says: a number in base eight, or users, a sign and rights. -/
def newMode? (spec : Chars) (mode : Nat) : Option Nat :=
  match Sum.inBase? 8 spec with
  | some m => some (m % 4096)
  | none =>
    let who := spec.takeWhile ['u', 'g', 'o', 'a'].contains
    let masked := fun (bits : Nat) => if who = [] then bits &&& 0o755 else bits
    match spec.drop who.length with
    | '+' :: what => some (mode ||| masked (bitsOf who what))
    | '-' :: what => some (mode &&& (0o7777 ^^^ bitsOf who what))
    | '=' :: what => some ((mode &&& (0o7777 ^^^ bitsOf who ['r', 'w', 'x'])) ||| masked (bitsOf who what))
    | _ => none

/-- Change the mode of a file. -/
def chmod (spec : Chars) : Chars → Action := fun a s =>
  match s.disk.lookup true (pathOf a) with
  | .error e => complain ("cannot access ".toList ++ inQuotes a ++ ": ".toList ++ faultText e) 1 s
  | .ok n =>
    match newMode? spec n.mode with
    | some m => change a (·.setMode (pathOf a) m) s
    | none => complain ("invalid mode: ".toList ++ inQuotes spec) 1 s

/-- The names in a directory, in order; hidden ones are left out unless they are asked for. -/
def ls (letters : List Char) : Chars → Action := fun a s =>
  if letters.contains 'd' ∧ s.disk.occupied (pathOf a) then s.say (a ++ ['\n'])
  else
  match s.disk.lookup true (pathOf a), s.disk.list (pathOf a) with
  | .ok (.dir ..), .ok es =>
    let isAll := letters.contains 'a' || letters.contains 'A'
    let names := (es.map fun e => ofBytes e.1).filter fun n => isAll || n.head? != some '.'
    let names := (if letters.contains 'a' then [['.'], ['.', '.']] else []) ++ names
    s.say ((names.mergeSort fun a b => !decide (b < a)).flatMap (· ++ ['\n']))
  | .ok (.dir ..), .error e | .error e, _ =>
    complain ("cannot access ".toList ++ inQuotes a ++ ": ".toList ++ faultText e) 2 s
  | .ok _, _ => s.say (a ++ ['\n'])

/-- What a symbolic link points to. -/
def readlink : Chars → Action := fun a s =>
  match s.disk.lookup false (pathOf a) with
  | .ok (.link target) => s.say (ofBytes target.bytes ++ ['\n'])
  | _ => (s, 1)

/-- The path without links to a file. -/
def realpath : Chars → Action := fun a s =>
  match s.disk.canonical (pathOf a) with
  | .ok p => s.say (ofBytes p.bytes ++ ['\n'])
  | .error e => complain (a ++ ": ".toList ++ faultText e) 1 s

end WarmCheck.Shell.Utility

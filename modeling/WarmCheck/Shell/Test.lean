import WarmCheck.Shell.Octets
import WarmCheck.Disk.Walk

/-!
# Tests

The conditions on texts, numbers and files of `test` and of square brackets.

* `Test.eval`: whether a condition holds.
-/

namespace WarmCheck.Shell.Test

/-- The words of a test: what holds, or what is wrong with it. -/
abbrev Verdict := Except Chars Bool

/-- A test of one text. -/
def unary? (d : Disk) (op : String) (a : Chars) : Option Bool :=
  let p := pathOf a
  let node := (d.lookup true p).toOption
  let has := fun (right : Nat) => node.any fun n => Disk.may right n.mode
  match op with
  | "-n" => some (a ≠ [])
  | "-z" => some (a = [])
  | "-e" => some node.isSome
  | "-f" => some (node.any Node.isFile)
  | "-d" => some (node.any Node.isDir)
  | "-r" => some (has 4)
  | "-w" => some (has 2)
  | "-x" => some (has 1)
  | "-s" => some (node.any fun n => match n with
    | .file data _ => data ≠ []
    | .dir .. => true
    | .link _ | .socket .. => false)
  | "-h" | "-L" => some (match d.lookup false p with
    | .ok (.link _) => true
    | _ => false)
  | "-S" => some (match node with
    | some (.socket ..) => true
    | _ => false)
  | "-O" | "-G" => some node.isSome
  | "-p" | "-b" | "-c" | "-g" | "-k" | "-u" | "-t" => some false
  | _ => none

/-- The number of an operand. -/
def number (a : Chars) : Except Chars Int :=
  match integer? ((a.dropWhile (· = ' ')).reverse.dropWhile (· = ' ')).reverse with
  | some n => .ok n
  | none => .error ("Illegal number: ".toList ++ a)

/-- A comparison of two numbers. -/
def compare (test : Int → Int → Bool) (a b : Chars) : Verdict := do return test (← number a) (← number b)

/-- A test of two texts. -/
def binary? (d : Disk) (op : String) (a b : Chars) : Option Verdict :=
  match op with
  | "=" => some (.ok (a == b))
  | "!=" => some (.ok (a != b))
  | "<" => some (.ok (decide (a < b)))
  | ">" => some (.ok (decide (b < a)))
  | "-eq" => some (compare (· == ·) a b)
  | "-ne" => some (compare (· != ·) a b)
  | "-lt" => some (compare (fun m n => m < n) a b)
  | "-le" => some (compare (fun m n => m ≤ n) a b)
  | "-gt" => some (compare (fun m n => n < m) a b)
  | "-ge" => some (compare (fun m n => n ≤ m) a b)
  -- no file is newer than another
  | "-nt" | "-ot" => some (.ok false)
  | "-ef" => some (.ok (match d.find true (pathOf a), d.find true (pathOf b) with
    | .ok (.node p _), .ok (.node q _) => p == q
    | _, _ => false))
  | _ => none

variable (d : Disk)

mutual

/-- Conditions joined by `-o`, and the words that are left. -/
def any : Nat → List Chars → Except Chars (Bool × List Chars)
  | 0, _ => .error "too complex".toList
  | n + 1, ws => do
    let (a, rest) ← all n ws
    match rest with
    | ['-', 'o'] :: rest => do
      let (b, rest) ← any n rest
      return (a || b, rest)
    | rest => return (a, rest)

/-- Conditions joined by `-a`, and the words that are left. -/
def all : Nat → List Chars → Except Chars (Bool × List Chars)
  | 0, _ => .error "too complex".toList
  | n + 1, ws => do
    let (a, rest) ← one n ws
    match rest with
    | ['-', 'a'] :: rest => do
      let (b, rest) ← all n rest
      return (a && b, rest)
    | rest => return (a, rest)

/-- One condition, and the words that are left. -/
def one : Nat → List Chars → Except Chars (Bool × List Chars)
  | 0, _ => .error "too complex".toList
  | _, [] => .ok (false, [])
  | n + 1, a :: ws => do
    match ws with
    | op :: b :: rest =>
      if let some verdict := binary? d (String.ofList op) a b then return (← verdict, rest)
    | [op] =>
      if (binary? d (String.ofList op) a []).isSome then throw (op ++ ": argument expected".toList)
    | [] => pure ()
    if a = ['!'] ∧ ws ≠ [] then do
      let (b, rest) ← one n ws
      return (!b, rest)
    if a = ['('] ∧ ws ≠ [] then do
      match ← any n ws with
      | (b, [')'] :: rest) => return (b, rest)
      | _ => .error "closing paren expected".toList
    match ws with
    | b :: rest =>
      match unary? d (String.ofList a) b with
      | some r => return (r, rest)
      | none => return (a ≠ [], b :: rest)
    | [] => return (a ≠ [], [])

end

/-- Whether a condition holds, or what is wrong with it. -/
def eval (ws : List Chars) : Verdict :=
  match ws with
  | [] => .ok false
  | [a] => .ok (a ≠ [])
  | ws => do
    match ← any d (3 * ws.length + 3) ws with
    | (b, []) => return b
    | (_, rest) =>
      let last := (ws[ws.length - rest.length - 1]?).getD []
      .error (last ++ ": unexpected operator".toList)

end WarmCheck.Shell.Test

import WarmCheck.Shell.Quote

/-!
# Arithmetic

The whole numbers of 64 bits with which a shell counts.

* `Sum`: expressions; `Sum.parse?`: the expression that a text spells.
* `Sum.value`: its value, with the variables that it sets.
-/

namespace WarmCheck.Shell

/-- An arithmetic expression. -/
inductive Sum where
  | number (n : Int)
  | named (name : Chars)
  | unary (op : String) (a : Sum)
  | binary (op : String) (a b : Sum)
  | choice (condition yes no : Sum)
  /-- A variable set to a value, or to what an operator makes of its old value and another. -/
  | assign (name : Chars) (op : String) (a : Sum)
  deriving Repr

/-- Why there is no value. -/
inductive SumError where
  | notAnExpression
  | divisionByZero
  /-- A variable that holds no number. -/
  | notANumber (value : Chars)
  deriving DecidableEq, Repr

namespace Sum

/-! ## Reading -/

/-- A number, a name or an operator. -/
inductive Token where
  | number (n : Int)
  | name (cs : Chars)
  | op (text : String)
  deriving DecidableEq, Repr

/-- The operators, the longer ones first. -/
def operators : List String :=
  ["<<=", ">>=", "<<", ">>", "<=", ">=", "==", "!=", "&&", "||", "+=", "-=", "*=", "/=", "%=", "&=",
    "^=", "|=", "+", "-", "*", "/", "%", "<", ">", "=", "!", "~", "&", "^", "|", "?", ":", "(", ")"]

/-- The value of a digit in bases up to sixteen. -/
def hexValue? (c : Char) : Option Nat :=
  if c.isDigit then some (Text.digitValue c)
  else if 'a' ≤ c ∧ c ≤ 'f' then some (c.toNat - 87)
  else if 'A' ≤ c ∧ c ≤ 'F' then some (c.toNat - 55)
  else none

/-- The value of digits in a base. -/
def inBase? (base : Nat) (ds : Chars) : Option Nat :=
  ds.foldl (fun acc c => do
    let n ← acc
    let d ← hexValue? c
    if d < base then some (n * base + d) else none) (if ds = [] then none else some 0)

/-- The number that a text spells: octal after a zero, hexadecimal after `0x`. -/
def literal? : Chars → Option Nat
  | '0' :: 'x' :: ds | '0' :: 'X' :: ds => inBase? 16 ds
  | '0' :: d :: ds => inBase? 8 (d :: ds)
  | ds => inBase? 10 ds

/-- The number of 64 bits with the same remainder. -/
def wrap (n : Int) : Int := Int.bmod n UInt64.size

/-- The tokens of a text, looking at most at `n` characters. -/
def tokens? : Nat → Chars → Option (List Token)
  | 0, _ => none
  | _, [] => some []
  | n + 1, c :: cs =>
    if c = ' ' ∨ c = '\t' ∨ c = '\n' then tokens? n cs
    else if isNameChar c then do
      let word := (c :: cs).takeWhile isNameChar
      let rest ← tokens? n ((c :: cs).dropWhile isNameChar)
      if c.isDigit then return .number (wrap (← literal? word)) :: rest else return .name word :: rest
    else do
      let op ← operators.find? fun op => (List.isPrefixOf? op.toList (c :: cs)).isSome
      let rest ← tokens? n ((c :: cs).drop op.length)
      return .op op :: rest

/-- The rank of a binary operator; the greater, the closer it binds. -/
def rank? (op : String) : Option Nat :=
  [["||"], ["&&"], ["|"], ["^"], ["&"], ["==", "!="], ["<", "<=", ">", ">="], ["<<", ">>"], ["+", "-"],
    ["*", "/", "%"]].findIdx? (·.contains op)

/-- The operator in an assignment, empty for a plain one. -/
def assignment? (op : String) : Option String :=
  if ["=", "+=", "-=", "*=", "/=", "%=", "&=", "^=", "|=", "<<=", ">>="].contains op then
    some (String.ofList op.toList.dropLast)
  else none

mutual

/-- An operand with what stands before it. -/
def operand? : Nat → List Token → Option (Sum × List Token)
  | 0, _ => none
  | _ + 1, .number k :: ts => some (.number k, ts)
  | n + 1, .name x :: .op op :: ts =>
    match assignment? op with
    | some op => do
      let (a, rest) ← whole? n ts
      return (.assign x op a, rest)
    | none => some (.named x, .op op :: ts)
  | _ + 1, .name x :: ts => some (.named x, ts)
  | n + 1, .op "(" :: ts => do
    match ← whole? n ts with
    | (a, .op ")" :: rest) => return (a, rest)
    | _ => none
  | n + 1, .op op :: ts =>
    if ["+", "-", "!", "~"].contains op then do
      let (a, rest) ← operand? n ts
      return (.unary op a, rest)
    else none
  | _, [] => none

/-- An operand, and what binary operators of at least a rank make of it. -/
def operation? : Nat → Nat → List Token → Option (Sum × List Token)
  | 0, _, _ => none
  | n + 1, least, ts => do
    let (a, rest) ← operand? n ts
    further? n least a rest

/-- What binary operators of at least a rank make of a first operand, from left to right. -/
def further? : Nat → Nat → Sum → List Token → Option (Sum × List Token)
  | 0, _, _, _ => none
  | n + 1, least, a, .op op :: ts =>
    match rank? op with
    | some r =>
      if least ≤ r then do
        let (b, rest) ← operation? n (r + 1) ts
        further? n least (.binary op a b) rest
      else some (a, .op op :: ts)
    | none => some (a, .op op :: ts)
  | _ + 1, _, a, ts => some (a, ts)

/-- An expression, which may choose between two others. -/
def whole? : Nat → List Token → Option (Sum × List Token)
  | 0, _ => none
  | n + 1, ts => do
    match ← operation? n 0 ts with
    | (a, .op "?" :: rest) =>
      match ← whole? n rest with
      | (b, .op ":" :: rest) => do
        let (c, rest) ← whole? n rest
        return (.choice a b c, rest)
      | _ => none
    | r => return r

end

/-- The expression that a text spells; an empty text is zero. -/
def parse? (cs : Chars) : Option Sum := do
  match ← tokens? (cs.length + 1) cs with
  | [] => return .number 0
  | ts =>
    match ← whole? (4 * ts.length + 4) ts with
    | (a, []) => return a
    | _ => none

/-! ## Meaning -/

/-- One for what holds. -/
def truth (b : Bool) : Int := if b then 1 else 0

/-- What a binary operator makes of two numbers. -/
def operate (op : String) (a b : Int) : Except SumError Int :=
  match op with
  | "+" => .ok (wrap (a + b))
  | "-" => .ok (wrap (a - b))
  | "*" => .ok (wrap (a * b))
  | "/" => if b = 0 then .error .divisionByZero else .ok (wrap (a.tdiv b))
  | "%" => if b = 0 then .error .divisionByZero else .ok (a.tmod b)
  | "<" => .ok (truth (a < b))
  | "<=" => .ok (truth (a ≤ b))
  | ">" => .ok (truth (b < a))
  | ">=" => .ok (truth (b ≤ a))
  | "==" => .ok (truth (a = b))
  | "!=" => .ok (truth (a ≠ b))
  | "<<" => .ok (wrap (a * Int.pow 2 (b.emod 64).toNat))
  | ">>" => .ok (a.fdiv (Int.pow 2 (b.emod 64).toNat))
  | "&" => .ok (Int64.ofInt a &&& Int64.ofInt b).toInt
  | "^" => .ok (Int64.ofInt a ^^^ Int64.ofInt b).toInt
  | "|" => .ok (Int64.ofInt a ||| Int64.ofInt b).toInt
  | _ => .ok b

/-- What a unary operator makes of a number. -/
def operateOn (op : String) (a : Int) : Int :=
  match op with
  | "-" => wrap (-a)
  | "!" => truth (a = 0)
  | "~" => -a - 1
  | _ => a

/-- A number with a sign, or a complaint about the value that has been taken for one. -/
def numberOr (value : Chars) (n : Option Nat) (sign : Int) : Except SumError Int :=
  match n with
  | some n => .ok (wrap (sign * n))
  | none => .error (.notANumber value)

/-- The number that a variable holds, with blanks around it; one that is not set or empty holds zero. -/
def held (vars : Chars → Option Chars) (set : List (Chars × Int)) (name : Chars) :
    Except SumError Int :=
  match set.lookup name, vars name with
  | some n, _ => .ok n
  | none, none => .ok 0
  | none, some value =>
    let isGap := fun c => [' ', '\t', '\n'].contains c
    match ((value.dropWhile isGap).reverse.dropWhile isGap).reverse with
    | [] => .ok 0
    | '-' :: cs => numberOr value (literal? cs) (-1)
    | '+' :: cs | cs => numberOr value (literal? cs) 1

/-- The value of an expression, and the variables that have been set, the last first. -/
def value (vars : Chars → Option Chars) (set : List (Chars × Int)) :
    Sum → Except SumError (Int × List (Chars × Int))
  | number n => .ok (n, set)
  | named x => do return (← held vars set x, set)
  | unary op a => do
    let (m, set) ← value vars set a
    return (operateOn op m, set)
  | binary op a b => do
    let (m, set) ← value vars set a
    if op = "&&" ∧ m = 0 then return (0, set)
    else if op = "||" ∧ m ≠ 0 then return (1, set)
    else
      let (n, set) ← value vars set b
      if op = "&&" ∨ op = "||" then return (truth (n ≠ 0), set)
      else return (← operate op m n, set)
  | choice c a b => do
    let (m, set) ← value vars set c
    if m ≠ 0 then value vars set a else value vars set b
  | assign x op a => do
    let (n, set) ← value vars set a
    let n ← if op = "" then pure n else operate op (← held vars set x) n
    return (n, (x, n) :: set)

end Sum

end WarmCheck.Shell

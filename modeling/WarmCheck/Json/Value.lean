import WarmCheck.Json.Token

/-!
# JSON values

Values of any depth, read from tokens by a machine with a stack of open containers.

* `Value`: a value whose numbers and strings are still as they were written.
* `Value.ofTokens?`, `Value.parse?`: reading.
-/

namespace WarmCheck.Json

/-- A JSON value. The members of an object keep their order, and a key may occur twice. -/
inductive Value where
  | null
  | bool (value : Bool)
  | number (text : Bytes)
  | string (body : Bytes)
  | array (items : List Value)
  | object (members : List (Bytes × Value))
  deriving Repr

/-- A container of which something has been read, the newest first. An open object also has the key
of the member that comes next. -/
inductive Frame where
  | array (items : List Value)
  | object (members : List (Bytes × Value)) (key : Bytes)

/-- What may come next, and the containers that are open around it, the innermost first. -/
inductive Reading where
  /-- A value. -/
  | value (stack : List Frame)
  /-- The first item of an array, or its end. -/
  | item (stack : List Frame)
  /-- The first key of an object, or its end. -/
  | member (stack : List Frame)
  /-- A further key of an object. -/
  | key (members : List (Bytes × Value)) (stack : List Frame)
  /-- The colon after a key. -/
  | colon (members : List (Bytes × Value)) (key : Bytes) (stack : List Frame)
  /-- What follows a value: a comma or the end of the container around it. -/
  | after (value : Value) (stack : List Frame)

namespace Reading

/-- Begin a value. -/
def begin? (stack : List Frame) : Token → Option Reading
  | .null => some (.after .null stack)
  | .bool b => some (.after (.bool b) stack)
  | .number text => some (.after (.number text) stack)
  | .string body => some (.after (.string body) stack)
  | .openArray => some (.item stack)
  | .openObject => some (.member stack)
  | _ => none

/-- Take one token. -/
def step? : Reading → Token → Option Reading
  | .value stack, t => begin? stack t
  | .item stack, .closeArray => some (.after (.array []) stack)
  | .item stack, t => begin? (.array [] :: stack) t
  | .member stack, .closeObject => some (.after (.object []) stack)
  | .member stack, .string name => some (.colon [] name stack)
  | .key members stack, .string name => some (.colon members name stack)
  | .colon members name stack, .colon => some (.value (.object members name :: stack))
  | .after v (.array items :: stack), .comma => some (.value (.array (v :: items) :: stack))
  | .after v (.array items :: stack), .closeArray =>
    some (.after (.array (v :: items).reverse) stack)
  | .after v (.object members name :: stack), .comma => some (.key ((name, v) :: members) stack)
  | .after v (.object members name :: stack), .closeObject =>
    some (.after (.object ((name, v) :: members).reverse) stack)
  | _, _ => none

/-- Take tokens in order. -/
def run? (r : Reading) : List Token → Option Reading
  | [] => some r
  | t :: ts =>
    match r.step? t with
    | some r => run? r ts
    | none => none

end Reading

namespace Value

/-- The value that all the tokens together spell. -/
def ofTokens? (ts : List Token) : Option Value :=
  match Reading.run? (.value []) ts with
  | some (.after v []) => some v
  | _ => none

/-- The value of a document. -/
def parse? (bs : Bytes) : Option Value := (Token.lex? bs).bind ofTokens?

end Value

end WarmCheck.Json

import WarmCheck.Path
import WarmCheck.Text.Blank

/-!
# Environment variables

* `Environment.get?`: the value of a variable.
* `Environment.isOn`: a variable used as a switch.
-/

namespace WarmCheck

/-- The variables of a process and their values; the first entry for a name counts. -/
structure Environment where
  entries : List (String × Bytes)
  deriving DecidableEq, Repr

namespace Environment

/-- The value of a variable. -/
def get? (env : Environment) (name : String) : Option Bytes := env.entries.lookup name

/-- The value of a variable, if it is not empty. -/
def nonEmpty? (env : Environment) (name : String) : Option Bytes :=
  (env.get? name).filter (!·.isEmpty)

/-- The value of a variable, if it is text. -/
def text? (env : Environment) (name : String) : Option (List Char) :=
  (env.get? name).bind Utf8.decode?

/-- ASCII letters in lower case. -/
def lower (cs : List Char) : List Char := cs.map Char.toLower

/-- The values that turn a switch on, blanks around them and the case of letters apart. -/
def onWords : List (List Char) := ["1".toList, "true".toList, "yes".toList, "on".toList]

/-- Whether a variable turns its switch on. -/
def isOn (env : Environment) (name : String) : Bool :=
  match env.text? name with
  | some cs => onWords.contains (lower (Text.trim cs))
  | none => false

/-- With a variable set, or removed. -/
def set (env : Environment) (name : String) (value : Option Bytes) : Environment :=
  let rest := env.entries.filter (·.1 != name)
  match value with
  | some v => ⟨(name, v) :: rest⟩
  | none => ⟨rest⟩

end Environment

end WarmCheck

import WarmCheck.Fault

/-!
# Directory trees

A tree of files, directories, symbolic links and sockets. A place in the tree is the list of names
that lead to it from the top through directories.

* `Node.get?`: what is at a place.
* `Node.put`, `Node.erase`: the tree with another entry at a place, or without it.
-/

namespace WarmCheck

/-- The name of an entry of a directory. -/
abbrev Name := Bytes

/-- The names that lead from the top of a tree to a place in it. -/
abbrev Place := List Name

/-- A file, a directory, a symbolic link or a socket. -/
inductive Node where
  | file (data : Bytes) (mode : Nat)
  | dir (mode : Nat) (entries : List (Name × Node))
  | link (target : Path)
  /-- A socket, and who listens at it. -/
  | socket (listener : Option Nat) (mode : Nat)
  deriving Repr

namespace Node

/-- Whether this is a directory itself, not a link to one. -/
def isDir : Node → Bool
  | dir .. => true
  | _ => false

/-- Whether this is a file itself. -/
def isFile : Node → Bool
  | file .. => true
  | _ => false

/-- The mode; everybody may do everything with a link itself. -/
def mode : Node → Nat
  | file _ mode | dir mode _ | socket _ mode => mode
  | link _ => 0o777

/-- The entries of a directory; nothing else has any. -/
def entries : Node → List (Name × Node)
  | dir _ es => es
  | _ => []

/-- The entry of a directory with this name. -/
def entry? (n : Node) (name : Name) : Option Node := n.entries.lookup name

/-- What is at a place. -/
def get? : Node → Place → Option Node
  | n, [] => some n
  | n, name :: rest => (n.entry? name).bind (·.get? rest)

/-- The entries with `n` under this name, in the place of the old one if there is one. -/
def putEntry (name : Name) (n : Node) : List (Name × Node) → List (Name × Node)
  | [] => [(name, n)]
  | (k, old) :: es => if k = name then (k, n) :: es else (k, old) :: putEntry name n es

/-- The tree with `n` at a place. Where no directory holds the place, nothing changes. -/
def put (n : Node) : Node → Place → Node
  | _, [] => n
  | dir mode es, [name] => dir mode (putEntry name n es)
  | dir mode es, name :: rest =>
    match es.lookup name with
    | some old => dir mode (putEntry name (put n old rest) es)
    | none => dir mode es
  | top, _ => top

/-- The tree without what is at a place. -/
def erase : Node → Place → Node
  | dir mode es, [name] => dir mode (es.filter (·.1 != name))
  | dir mode es, name :: rest =>
    match es.lookup name with
    | some old => dir mode (putEntry name (erase old rest) es)
    | none => dir mode es
  | top, _ => top

end Node

/-- The absolute path of a place. -/
def Place.path (here : Place) : Path := ⟨Path.slash :: Path.glue here⟩

end WarmCheck

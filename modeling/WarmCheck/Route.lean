import WarmCheck.Path

/-!
# Route files

Which files define routes, and which directories never matter.

* `Route.isRouteName`: `+page.svelte`, `+layout@group.server.ts` and so on.
* `Route.isIgnored`, `Route.concerns`.
-/

namespace WarmCheck.Route

open Text

/-- The kinds of route files. -/
def kinds : List (List Char) :=
  ["page".toList, "layout".toList, "server".toList, "error".toList]

/-- The endings of route files. -/
def endings : List (List Char) :=
  [".svelte".toList, ".js".toList, ".ts".toList, ".server.svelte".toList, ".server.js".toList,
    ".server.ts".toList]

/-- Without a layout name: an at sign and all up to the next dot. -/
def dropLayout : List Char → List Char
  | '@' :: cs => cs.dropWhile (· != '.')
  | cs => cs

/-- A plus sign, a kind, possibly a layout name, and an ending. -/
def isRouteName (name : List Char) : Bool :=
  match name with
  | '+' :: cs => kinds.any fun kind =>
    match kind.isPrefixOf? cs with
    | some cs => endings.contains (dropLayout cs)
    | none => false
  | _ => false

/-- Whether the last component of a path is the name of a route file. -/
def isRouteFile (p : Path) : Bool :=
  match p.fileName?.bind Utf8.decode? with
  | some name => isRouteName name
  | none => false

/-- Directories whose content never matters. -/
def ignoredNames : List Bytes :=
  [Utf8.ofString "node_modules", Utf8.ofString ".svelte-kit", Utf8.ofString ".git"]

/-- A component that makes the whole path not matter. -/
def isIgnoredComponent : Component → Bool
  | .name bs => ignoredNames.contains bs
  | _ => false

/-- Whether a path goes through a directory that never matters. -/
def isIgnored (p : Path) : Bool := p.components.any isIgnoredComponent

/-- Whether a change of the path asks for new route types. -/
def concerns (p : Path) : Bool := !isIgnored p && isRouteFile p

end WarmCheck.Route

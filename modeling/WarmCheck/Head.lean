import WarmCheck.Disk.Walk
import WarmCheck.Text.Blank

/-!
# The head of a repository

Which file names the current branch of the repository around a directory.

* `Head.find?`: the file, from the nearest `.git` at or above a directory.
* `Head.isHead`: whether a change is about it.
-/

namespace WarmCheck.Head

/-- The directory that a `.git` file points to: what follows `gitdir:` on the first line that begins
so, without blanks around it. -/
def target? (content : List Char) : Option Path :=
  ((List.splitOn '\n' content).findSome? (List.isPrefixOf? "gitdir:".toList)).map fun cs =>
    ⟨Utf8.encode (Text.trim cs)⟩

/-- The nearest `.git` at or above a directory. -/
def dotGit? (d : Disk) (start : Path) : Option Path :=
  (start.ancestors.map (·.join (.ofString ".git"))).find? d.reaches

/-- The head file of the repository around a directory. Where `.git` is a file, it names the
directory that holds the head, seen from its own directory. -/
def find? (d : Disk) (start : Path) : Option Path := do
  let dotGit ← dotGit? d start
  let head := Path.ofString "HEAD"
  if d.isDir dotGit then return dotGit.join head
  let content ← (d.read dotGit).toOption
  let gitDir ← target? (← Utf8.decode? content)
  if gitDir.isAbsolute then return gitDir.join head
  return ((← dotGit.parent?).join gitDir).join head

/-- Whether a path is the head file or has its name. -/
def isHead (head p : Path) : Bool := p.same head || p.fileName? == head.fileName?

end WarmCheck.Head

import WarmCheck.Environment
import WarmCheck.Digest.Sha256
import WarmCheck.Json.Text

/-!
# Workspaces

The files by which a daemon and its clients find each other.

* `Workspace.cache`, `Workspace.marker`: the cache directory and the marker that holds the number of
  the daemon's process.
* `Workspace.endpoint`: the socket, in the cache directory if its path is short enough for a socket,
  else in the directory for temporary files, under a name made from the root.
-/

namespace WarmCheck

/-- A workspace root, and the directory for temporary files. -/
structure Workspace where
  root : Path
  temp : Path
  deriving DecidableEq, Repr

namespace Workspace

/-- The longest path at which a socket is put, in octets. -/
def maxSocketPath : Nat := 100

/-- The directory for temporary files. -/
def tempDir (env : Environment) : Path :=
  match env.get? "TMPDIR" with
  | some bs => ⟨bs⟩
  | none => .ofString "/tmp"

/-- The workspace at `root` as seen by a process with environment `env`. -/
def of (root : Path) (env : Environment) : Workspace := ⟨root, tempDir env⟩

/-- The cache directory. -/
def cache (w : Workspace) : Path := w.root.join (.ofString "node_modules/.cache/checkd")

/-- The file that holds the process number of the daemon. -/
def marker (w : Workspace) : Path := w.cache.join (.ofString "daemon.pid")

/-- The first eight octets of the digest of the root, in hexadecimal. -/
def fingerprint (root : Path) : List Char :=
  ((Sha256.digest root.bytes).take 8).flatMap fun b =>
    [Json.hexDigit (b.toNat / 16), Json.hexDigit (b.toNat % 16)]

/-- The socket in the cache directory. -/
def cacheSocket (w : Workspace) : Path := w.cache.join (.ofString "daemon.sock")

/-- The socket in the directory for temporary files. -/
def tempSocket (w : Workspace) : Path :=
  w.temp.join ⟨Utf8.encode ("checkd-".toList ++ fingerprint w.root ++ ".sock".toList)⟩

/-- The socket of the daemon. -/
def endpoint (w : Workspace) : Path :=
  if w.cacheSocket.bytes.length ≤ maxSocketPath then w.cacheSocket else w.tempSocket

end Workspace

end WarmCheck

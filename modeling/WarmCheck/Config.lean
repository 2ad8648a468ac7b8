import WarmCheck.Workspace

/-!
# Configuration

What a daemon or a direct run is told by its caller and by the environment.

* `Config.new`, `Config.ofEnvironment`.
* `Config.watchArgs`, `Config.directArgs`, `Config.syncArgs`: the arguments of the programs it runs.
-/

namespace WarmCheck

/-- The programs and directories of a workspace. -/
structure Config where
  root : Path
  tsconfig : Option Path
  /-- A directory in which many files may vanish at once. -/
  bigChangesDir : Option Path
  checker : Path
  syncTool : Path
  deriving DecidableEq, Repr

namespace Config

/-- A program of the workspace if it has one of that name, else the program of that name. -/
def localProgram (isFile : Path → Bool) (root : Path) (name : String) : Path :=
  let own := ((root.join (.ofString "node_modules")).join (.ofString ".bin")).join (.ofString name)
  if isFile own then own else .ofString name

/-- The configuration of a root on a disk where `isFile` tells the files. -/
def new (isFile : Path → Bool) (root : Path) : Config where
  root
  tsconfig := none
  bigChangesDir := none
  checker := localProgram isFile root "svelte-check"
  syncTool := localProgram isFile root "svelte-kit"

/-- The configuration of a root under an environment, which may name other programs. -/
def ofEnvironment (isFile : Path → Bool) (env : Environment) (root : Path)
    (tsconfig : Option Path) : Config :=
  let config := new isFile root
  { config with
    tsconfig
    bigChangesDir := (env.nonEmpty? "CHECKD_BIG_CHANGES_DIR").map fun d => root.join ⟨d⟩
    checker := ((env.nonEmpty? "CHECKD_CHECKER").map Path.mk).getD config.checker
    syncTool := ((env.nonEmpty? "CHECKD_SYNC").map Path.mk).getD config.syncTool }

/-- The arguments that hand a project configuration on. -/
def tsconfigArgs (c : Config) : List Bytes :=
  match c.tsconfig with
  | some p => [Utf8.ofString "--tsconfig", p.bytes]
  | none => []

/-- The arguments of the checker that keeps watching. -/
def watchArgs (c : Config) : List Bytes :=
  [Utf8.ofString "--watch", Utf8.ofString "--workspace", c.root.bytes] ++ c.tsconfigArgs

/-- The arguments of a checker that runs once. -/
def directArgs (c : Config) : List Bytes :=
  [Utf8.ofString "--workspace", c.root.bytes, Utf8.ofString "--output", Utf8.ofString "machine"] ++
    c.tsconfigArgs

/-- The arguments of the tool that brings route types up to date. -/
def syncArgs : List Bytes := [Utf8.ofString "sync"]

/-- Whether the environment asks for direct runs only. -/
def isDisabled (env : Environment) : Bool := env.isOn "CHECKD_DISABLE"

/-- Whether the environment asks for more log text. -/
def isVerbose (env : Environment) : Bool := env.isOn "CHECKD_VERBOSE"

/-- Whether the environment asks for logs in JSON. -/
def wantsJsonLogs (env : Environment) : Bool :=
  match env.text? "CHECKD_LOG_FORMAT" with
  | some cs => Environment.lower cs == "json".toList
  | none => false

end Config

end WarmCheck

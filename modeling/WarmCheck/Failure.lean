import WarmCheck.Fault

/-!
# Failures

* `Failure`: what can go wrong, one constructor for each cause.
* `Failure.message`, `Failure.source?`: how it is told.
-/

namespace WarmCheck

/-- What can go wrong in the daemon or in a direct run. -/
inductive Failure where
  /-- A file operation failed at a path. -/
  | io (path : Path) (fault : Fault)
  /-- The system does not report changes. -/
  | watch (text : String)
  /-- A document is not the JSON that is wanted. -/
  | json (problem : String)
  /-- A queue has no reader any more. -/
  | channelClosed (queue : String)
  /-- A task of the daemon broke down. -/
  | protocol (text : String)
  /-- The endpoint cannot be listened at. -/
  | bind (socket : Path) (fault : Fault)
  /-- A program cannot be started. -/
  | spawn (program : String) (fault : Fault)
  /-- Another daemon answers at the endpoint. -/
  | alreadyRunning (socket : Path)
  deriving DecidableEq, Repr

namespace Failure

/-- An empty document ends before its first value. -/
def emptyDocument : Failure := .json "EOF while parsing a value at line 1 column 0"

/-- The queue that the watchers fill and the supervisor empties has no reader. -/
def restartQueueClosed : Failure := .channelClosed "restart queue"

/-- The failure in one line. -/
def message : Failure → String
  | io path fault => "I/O error at " ++ path.display ++ ": " ++ fault.message
  | watch text => "notify error: " ++ text
  | json problem => "JSON error: " ++ problem
  | channelClosed queue => "channel closed: " ++ queue
  | protocol text => "daemon protocol error: " ++ text
  | bind socket fault =>
    "failed to bind daemon endpoint " ++ socket.display ++ ": " ++ fault.message
  | spawn program fault => "failed to spawn `" ++ program ++ "`: " ++ fault.message
  | alreadyRunning socket =>
    "a daemon is already serving this workspace (endpoint in use: " ++ socket.display ++ ")"

/-- The text of the cause, where the failure has one. -/
def source? : Failure → Option String
  | io _ fault | bind _ fault | spawn _ fault => some fault.message
  | watch text => some text
  | json problem => some problem
  | channelClosed _ | protocol _ | alreadyRunning _ => none

end Failure

end WarmCheck

import WarmCheck.Query

/-!
# The status server

The server answers each connection by itself. It reads until what it has read is the query, or cannot
become it. It answers a query with the snapshot of that moment and hangs up; to anything else it does
not answer, and hangs up when the other side has finished sending.

* `Request.judge`, `Request.ofReads`: what the octets that were read ask for.
* `Talk.read`: one read on a connection.
* `Server.step`: everything that can happen to the server.
-/

namespace WarmCheck

/-- What a client asks for. -/
inductive Request where
  /-- Exactly the query. -/
  | status
  /-- Something that is not the query and cannot become it. -/
  | unknown
  /-- The client has finished before the query was complete. -/
  | closed
  deriving DecidableEq, Repr

namespace Request

/-- What is known after a read, where `got` has been read before; an empty read is the end. `none`
stands for octets that can still become the query. -/
def judge (got read : Bytes) : Option Request :=
  if read = [] then some .closed
  else if got ++ read = Query.token then some .status
  else if (got ++ read).isPrefixOf Query.token then none
  else some .unknown

/-- What a sequence of reads asks for, where `got` has been read before. -/
def ofReads (got : Bytes) : List Bytes → Request
  | [] => .closed
  | read :: reads =>
    match judge got read with
    | some r => r
    | none => ofReads (got ++ read) reads

end Request

/-- The server's side of a connection. -/
inductive Talk where
  /-- What has been read can still become the query. -/
  | asking (got : Bytes)
  /-- What has been read is not the query; the rest is not looked at. -/
  | ignoring
  /-- The server has hung up. -/
  | ended
  deriving DecidableEq, Repr

namespace Talk

/-- One read on the connection while `s` is current, and what the server sends; an empty read is the
end of what the client sends. -/
def read (s : Snapshot) (t : Talk) (bs : Bytes) : Talk × Bytes :=
  match t with
  | .asking got =>
    match Request.judge got bs with
    | some .status => (.ended, s.encode)
    | some .unknown => (.ignoring, [])
    | some .closed => (.ended, [])
    | none => (.asking (got ++ bs), [])
  | .ignoring => (if bs = [] then .ended else .ignoring, [])
  | .ended => (.ended, [])

/-- Reads one after the other, and all that the server sends. -/
def readAll (s : Snapshot) (t : Talk) : List Bytes → Talk × Bytes
  | [] => (t, [])
  | bs :: rest =>
    let (t, sent) := t.read s bs
    let (t, more) := readAll s t rest
    (t, sent ++ more)

end Talk

/-- The server: its store, whether it still takes connections, and the connections it has taken, the
newest first. -/
structure Server (κ : Type) where
  store : Store
  isListening : Bool := true
  talks : List (κ × Talk) := []

namespace Server

variable {κ : Type} [DecidableEq κ]

/-- The largest number of octets that one read takes. -/
def readSize : Nat := 64

/-- The reads by which `n` octets or less that arrive together are taken. -/
def readsOf (n : Nat) (bs : Bytes) : List Bytes :=
  match n with
  | 0 => []
  | n + 1 => if bs = [] then [] else bs.take readSize :: readsOf n (bs.drop readSize)

/-- The reads by which octets that arrive together are taken. -/
def reads (bs : Bytes) : List Bytes := readsOf bs.length bs

/-- What can happen to the server. -/
inductive Input (κ : Type) where
  /-- A client connects. -/
  | connect (conn : κ)
  /-- Octets of a client are read; none stand for the end of what it sends. -/
  | read (conn : κ) (bytes : Bytes)
  /-- The snapshot changes. -/
  | publish (transition : Transition) (now : UInt64)
  /-- The server takes no more connections. -/
  | stop
  deriving Repr

/-- The server's side of a connection. -/
def talk? (s : Server κ) (conn : κ) : Option Talk := s.talks.lookup conn

/-- With another state of a connection. -/
def setTalk (s : Server κ) (conn : κ) (t : Talk) : Server κ :=
  { s with talks := s.talks.map fun (c, old) => if c = conn then (c, t) else (c, old) }

/-- One thing that happens, and what the server sends on the connection that it is about. -/
def step (s : Server κ) : Input κ → Server κ × Bytes
  | .connect conn =>
    if s.isListening then ({ s with talks := (conn, .asking []) :: s.talks }, []) else (s, [])
  | .read conn bs =>
    match s.talk? conn with
    | some t =>
      let (t, sent) := t.read s.store.current bs
      (s.setTalk conn t, sent)
    | none => (s, [])
  | .publish t now => ({ s with store := s.store.publish t now }, [])
  | .stop => ({ s with isListening := false }, [])

/-- Things that happen one after the other, and all that is sent. -/
def run (s : Server κ) : List (Input κ) → Server κ × Bytes
  | [] => (s, [])
  | i :: is =>
    let (s, sent) := s.step i
    let (s, more) := s.run is
    (s, sent ++ more)

/-! ## The client's view -/

/-- Whether the server has hung up. -/
def isOver (s : Server κ) (conn : κ) : Bool := s.talk? conn == some .ended

/-- Octets that a client sends at once, and what it gets back; `none` if the server has hung up. -/
def send (s : Server κ) (conn : κ) (bs : Bytes) : Option (Server κ × Bytes) :=
  if bs ≠ [] ∧ s.isOver conn then none
  else some (s.run ((reads bs).map (.read conn)))

/-- A client finishes sending, and what it gets back. -/
def finish (s : Server κ) (conn : κ) : Server κ × Bytes := s.step (.read conn [])

end Server

end WarmCheck

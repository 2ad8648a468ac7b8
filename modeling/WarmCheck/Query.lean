import WarmCheck.Snapshot.Format
import WarmCheck.Clock

/-!
# Queries

A client connects to the endpoint, sends the query and reads until the other side hangs up. Whatever
goes wrong on the way means that no daemon answers.

* `Query.token`: the octets of the query.
* `Query.Peer`: what the other side does.
* `Query.result`: what a query yields and how long it takes.
-/

namespace WarmCheck.Query

/-- The octets of the query. -/
def token : Bytes := Utf8.ofString "GET_STATUS"

/-- The longest time that a query may take, in milliseconds. -/
def timeLimit : Nat := 5000

/-- Something that the other side does. -/
inductive Move where
  | send (data : Bytes)
  | hangUp
  deriving DecidableEq, Repr

/-- What the other side does after it has read the query, with the times at which it does so, the
earliest first. -/
abbrev Peer := List (Nat × Move)

/-- The peer that sends a reply at once and hangs up. -/
def Peer.reply (bs : Bytes) : Peer := [(0, .send bs), (0, .hangUp)]

/-- The peer that makes moves one after the other from `now` on, each after a pause, until it hangs
up. -/
def Peer.ofPauses (clock : Clock) (now : Nat) : List (Nat × Move) → Peer
  | [] => []
  | (pause, move) :: rest =>
    let now := clock.wake (now + pause)
    match move with
    | .hangUp => [(now, .hangUp)]
    | .send data => (now, .send data) :: ofPauses clock now rest

/-- What a query yields, and the time that it takes. -/
structure Result where
  snapshot : Option Snapshot
  elapsed : Nat
  deriving DecidableEq, Repr

/-- Read what the other side sends, where `got` has been read before. The reply is complete when the
other side hangs up, and counts only if it does so within the limit. -/
def read (limit : Nat) (got : Bytes) : Peer → Result
  | [] => ⟨none, limit⟩
  | (time, .send data) :: rest =>
    if limit ≤ time then ⟨none, limit⟩ else read limit (got ++ data) rest
  | (time, .hangUp) :: _ =>
    if limit ≤ time then ⟨none, limit⟩ else ⟨Snapshot.decode? got, time⟩

/-- A query with a time limit; there is no peer where nobody takes the connection. -/
def result (limit : Nat) : Option Peer → Result
  | none => ⟨none, 0⟩
  | some peer => read limit [] peer

theorem elapsed_read_le (limit : Nat) (got : Bytes) (peer : Peer) :
    (read limit got peer).elapsed ≤ limit := by
  fun_induction read limit got peer with
  | case1 | case2 | case4 => exact Nat.le_refl _
  | case3 _ _ _ _ _ ih => exact ih
  | case5 _ _ _ h => exact Nat.le_of_lt (Nat.lt_of_not_le h)

end WarmCheck.Query

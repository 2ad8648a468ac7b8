import WarmCheck.Output
import WarmCheck.Snapshot

/-!
# The supervisor

The supervisor keeps one checker running. Every start opens a new generation; output carries the
generation of the checker it comes from, and only that of the current one counts.

* `Supervisor.start`, `Supervisor.stop`, `Supervisor.restart`, `Supervisor.takeChunk`; `Supervisor.drop`: its end
  without any of them.
* `Supervisor.step`: everything that can happen to a running supervisor.
-/

namespace WarmCheck

/-- A supervisor: what it has read of the current checker, the store it fills, the current
generation, the generation of the checker it holds, and the generations whose processes live. -/
structure Supervisor where
  output : Output := {}
  store : Store
  generation : Nat := 0
  child : Option Nat := none
  live : List Nat := []
  deriving DecidableEq, Repr

namespace Supervisor

/-- A supervisor that has not started anything. -/
def new (now : UInt64) : Supervisor := { store := .new now }

/-- Whether it holds a checker. -/
def isRunning (s : Supervisor) : Bool := s.child.isSome

/-- Kill the checker it holds. -/
def stop (s : Supervisor) : Supervisor :=
  match s.child with
  | some g => { s with child := none, live := s.live.filter (· != g) }
  | none => s

/-- Whether a checker is killed as soon as nobody holds it any more. -/
def killsOnDrop : Bool := true

/-- The supervisor is gone, and has not come to kill the checker it holds. -/
def drop (s : Supervisor) : Supervisor :=
  match s.child with
  | some g => { s with child := none, live := if killsOnDrop then s.live.filter (· != g) else s.live }
  | none => s

/-- Start a checker in the place of the one it holds, where `ok` tells whether the program can be
started. If it cannot, nothing runs until the next restart. -/
def start (s : Supervisor) (ok : Bool) : Supervisor :=
  let s := s.stop
  let generation := s.generation + 1
  if ok then { s with generation, child := some generation, live := generation :: s.live }
  else { s with generation }

/-- Kill the checker, forget what it has said, and start another. -/
def restart (s : Supervisor) (ok : Bool) (now : UInt64) : Supervisor :=
  let s := s.stop
  { s with output := {}, store := s.store.publish .reset now }.start ok

/-- A chunk of output of the checker of a generation. -/
def takeChunk (s : Supervisor) (generation : Nat) (p : Pipe) (bs : Bytes) (now : UInt64) :
    Supervisor :=
  if generation = s.generation then
    let (output, events) := s.output.feed p bs
    { s with output, store := s.store.publishAll (events.map .ofEvent) now }
  else s

/-- The checker it holds has ended. -/
def noticeExit (s : Supervisor) : Supervisor :=
  match s.child with
  | some g => { s with child := none, live := s.live.filter (· != g) }
  | none => s

theorem child_stop (s : Supervisor) : s.stop.child = none := by
  cases h : s.child <;> simp [stop, h]

theorem generation_stop (s : Supervisor) : s.stop.generation = s.generation := by
  cases h : s.child <;> simp [stop, h]

theorem store_stop (s : Supervisor) : s.stop.store = s.store := by
  cases h : s.child <;> simp [stop, h]

theorem output_stop (s : Supervisor) : s.stop.output = s.output := by
  cases h : s.child <;> simp [stop, h]

theorem generation_start (s : Supervisor) (ok : Bool) :
    (s.start ok).generation = s.generation + 1 := by
  cases ok <;> simp [start, generation_stop]

theorem child_start (s : Supervisor) (ok : Bool) :
    (s.start ok).child = if ok then some (s.generation + 1) else none := by
  cases ok <;> simp [start, generation_stop, child_stop]

theorem output_start (s : Supervisor) (ok : Bool) : (s.start ok).output = s.output := by
  cases ok <;> simp [start, output_stop]

theorem store_start (s : Supervisor) (ok : Bool) : (s.start ok).store = s.store := by
  cases ok <;> simp [start, store_stop]

theorem child_restart (s : Supervisor) (ok : Bool) (now : UInt64) :
    (s.restart ok now).child = if ok then some (s.generation + 1) else none := by
  simp [restart, child_start, generation_stop]

theorem live_restart (s : Supervisor) (ok : Bool) (now : UInt64) :
    (s.restart ok now).live =
      if ok then (s.generation + 1) :: s.stop.live else s.stop.live := by
  cases h : s.child <;> cases ok <;> simp [restart, start, stop, h]

theorem generation_restart (s : Supervisor) (ok : Bool) (now : UInt64) :
    (s.restart ok now).generation = s.generation + 1 := by
  simp [restart, generation_start, generation_stop]

theorem output_restart (s : Supervisor) (ok : Bool) (now : UInt64) :
    (s.restart ok now).output = {} := by simp [restart, output_start]

theorem store_restart (s : Supervisor) (ok : Bool) (now : UInt64) :
    (s.restart ok now).store = s.store.publish .reset now := by
  simp [restart, store_start, store_stop]

theorem generation_takeChunk (s : Supervisor) (g : Nat) (p : Pipe) (bs : Bytes) (now : UInt64) :
    (s.takeChunk g p bs now).generation = s.generation := by
  unfold takeChunk
  split <;> rfl

theorem child_takeChunk (s : Supervisor) (g : Nat) (p : Pipe) (bs : Bytes) (now : UInt64) :
    (s.takeChunk g p bs now).child = s.child := by
  unfold takeChunk
  split <;> rfl

theorem live_takeChunk (s : Supervisor) (g : Nat) (p : Pipe) (bs : Bytes) (now : UInt64) :
    (s.takeChunk g p bs now).live = s.live := by
  unfold takeChunk
  split <;> rfl

/-- Noticing an end does to a supervisor what killing the checker does. -/
theorem noticeExit_eq_stop (s : Supervisor) : s.noticeExit = s.stop := rfl

/-- A supervisor that is gone has killed its checker all the same. -/
theorem drop_eq_stop (s : Supervisor) : s.drop = s.stop := rfl

/-- Output of another generation changes nothing. -/
theorem takeChunk_of_ne {s : Supervisor} {g : Nat} (h : g ≠ s.generation) (p : Pipe) (bs : Bytes)
    (now : UInt64) : s.takeChunk g p bs now = s := if_neg h

/-! ## Running -/

/-- What can happen to a running supervisor. -/
inductive Input where
  /-- A restart is asked for, and the program can be started or not. -/
  | restart (ok : Bool)
  | chunk (generation : Nat) (pipe : Pipe) (bytes : Bytes)
  /-- The process of a generation ends by itself, which nobody has noticed yet. -/
  | dies (generation : Nat)
  /-- The supervisor notices that its checker has ended. -/
  | exit
  /-- The supervisor is asked to end. -/
  | shutdown
  deriving DecidableEq, Repr

/-- One thing that happens. -/
def step (s : Supervisor) (now : UInt64) : Input → Supervisor
  | .restart ok => s.restart ok now
  | .chunk g p bs => s.takeChunk g p bs now
  | .dies g => { s with live := s.live.filter (· != g) }
  | .exit => s.noticeExit
  | .shutdown => s.stop

/-- Things that happen one after the other, each at its time. -/
def run (s : Supervisor) (history : List (UInt64 × Input)) : Supervisor :=
  history.foldl (fun s (now, i) => s.step now i) s

end Supervisor

end WarmCheck

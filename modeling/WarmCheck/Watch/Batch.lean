/-!
# Batches

Events that follow one another closely are handled together. A batch begins with the first event
that is there, takes what comes until the window passes without anything, and is then handed over.

* `Feed`: what arrives when, and when it ends.
* `Feed.next`: one batch; `Feed.batches`: all of them, each asked for as soon as the last is there.
-/

namespace WarmCheck.Watch

/-- A batch and the time at which it is handed over. -/
structure Batch (ε : Type) where
  time : Nat
  events : List ε
  deriving DecidableEq, Repr

/-- What is still to be received: items with their times of arrival, the earliest first, and the time
at which the source closes. An item without an event is an error of the source, which keeps a batch
open but is no part of it. -/
structure Feed (ε : Type) where
  items : List (Nat × Option ε)
  close : Nat
  deriving DecidableEq, Repr

namespace Feed

variable {ε : Type}

/-- A source that closes when no batch is open any more. -/
def lasting (window now : Nat) (items : List (Nat × Option ε)) : Feed ε :=
  ⟨items, (items.map (·.1)).foldr max now + window⟩

/-- Whether an item that arrives at `arrival` is received by one that waits from `now` on for at most
the window. -/
def arrivesIn (window now arrival : Nat) : Bool := arrival ≤ now || arrival < now + window

/-- The events that join a batch that is open at `now`, the time at which it is handed over, and the
items that are left. -/
def gather (window close : Nat) :
    Nat → List (Nat × Option ε) → List ε × Nat × List (Nat × Option ε)
  | now, [] => ([], if close < now + window then max now close else now + window, [])
  | now, (arrival, item) :: rest =>
    if arrivesIn window now arrival then
      let (events, endTime, left) := gather window close (max now arrival) rest
      (item.toList ++ events, endTime, left)
    else ([], now + window, (arrival, item) :: rest)

theorem length_gather_le (window close now : Nat) (items : List (Nat × Option ε)) :
    (gather window close now items).2.2.length ≤ items.length := by
  induction items generalizing now with
  | nil => simp [gather]
  | cons i items ih =>
    rw [gather]
    split
    · exact Nat.le_succ_of_le (ih _)
    · exact Nat.le_refl _

/-- The next batch for one that asks at `now`, and what is left; `none` once nothing will come. -/
def next (window : Nat) (f : Feed ε) (now : Nat) : Option (Batch ε × Feed ε) :=
  match f.items with
  | [] => none
  | (arrival, item) :: rest =>
    let (events, endTime, left) := gather window f.close (max now arrival) rest
    some (⟨endTime, item.toList ++ events⟩, ⟨left, f.close⟩)

theorem length_of_next {window now : Nat} {f g : Feed ε} {b : Batch ε}
    (h : f.next window now = some (b, g)) : g.items.length < f.items.length := by
  unfold next at h
  split at h
  · cases h
  · next arrival item rest hi =>
    simp only [Option.some.injEq, Prod.mk.injEq] at h
    rw [← h.2, hi]
    exact Nat.lt_succ_of_le (length_gather_le _ _ _ rest)

/-- The batches for one that asks from `now` on, and the time at which it is told that nothing will
come. -/
def batches (window : Nat) (f : Feed ε) (now : Nat) : List (Batch ε) × Nat :=
  match h : f.next window now with
  | none => ([], max now f.close)
  | some (b, g) =>
    have := length_of_next h
    let (bs, closed) := batches window g b.time
    (b :: bs, closed)
termination_by f.items.length

end Feed

end WarmCheck.Watch

/-!
# Clocks

Sleepers wake at whole multiples of the grain of the clock.
-/

namespace WarmCheck

/-- A clock with its grain in milliseconds. -/
structure Clock where
  grain : Nat := 1
  deriving DecidableEq, Repr

namespace Clock

/-- The time at which one wakes who wants to sleep until `t`: the first multiple of the grain from
there on. -/
def wake (c : Clock) (t : Nat) : Nat :=
  let late := t % c.grain
  if late = 0 then t else t + (c.grain - late)

theorem le_wake (c : Clock) (t : Nat) : t ≤ c.wake t := by
  unfold wake
  simp only
  split
  · exact Nat.le_refl _
  · exact Nat.le_add_right _ _

end Clock

end WarmCheck

/-!
# Capacities

How the buffer of a container grows: to `minCapacity` first, and by doubling after that.
-/

namespace NodeSchema

/-- The least capacity of a container that holds something. -/
def minCapacity : Nat := 8

/-- The capacity to which a full buffer grows. -/
def growCapacity (capacity : Nat) : Nat :=
  if capacity < minCapacity then minCapacity else capacity * 2

theorem lt_growCapacity (capacity : Nat) : capacity < growCapacity capacity := by
  unfold growCapacity minCapacity
  split <;> omega

end NodeSchema

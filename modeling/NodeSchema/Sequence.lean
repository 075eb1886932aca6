import NodeSchema.Capacity

/-!
# Sequences

A sequence of elements in a buffer of a known capacity. An empty sequence that was never written to
has no buffer. Writing to a full one grows the buffer, and emptying a sequence gives the buffer up.

* `Sequence.toList` is what a sequence holds.
* Two sequences are equal when they hold the same elements in buffers of the same capacity.
-/

namespace NodeSchema

/-- Elements in a buffer. -/
structure Sequence (α : Type) where
  capacity : Nat
  elements : Array α
deriving DecidableEq, Repr

namespace Sequence

variable {α : Type}

/-- The sequence without a buffer. -/
def empty : Sequence α :=
  ⟨0, #[]⟩

instance : Inhabited (Sequence α) := ⟨empty⟩

/-- What a sequence holds. -/
def toList (q : Sequence α) : List α :=
  q.elements.toList

/-- The number of elements. -/
def size (q : Sequence α) : Nat :=
  q.elements.size

/-- Whether a sequence has a buffer. -/
def hasBuffer (q : Sequence α) : Bool :=
  0 < q.capacity

/-- Adds an element at the end, after growing a buffer that is full. -/
def push (q : Sequence α) (x : α) : Sequence α where
  capacity := if q.capacity < q.size + 1 then growCapacity q.capacity else q.capacity
  elements := q.elements.push x

/-- Adds elements at the end, one after the other. -/
def append (q : Sequence α) (xs : List α) : Sequence α :=
  xs.foldl push q

/-- The sequence to which these elements were added, one after the other. -/
def ofList (xs : List α) : Sequence α :=
  empty.append xs

/-- Takes all elements out. The sequence that is left has no buffer. -/
def take (q : Sequence α) : List α × Sequence α :=
  (q.toList, empty)

/-- Gives up all elements and the buffer. -/
def clear (_ : Sequence α) : Sequence α :=
  empty

/-- The element at a position. -/
def get? (q : Sequence α) (i : Nat) : Option α :=
  q.elements[i]?

/-- Takes all elements out of a sequence that holds `x`, and writes the other ones back. -/
def erase [DecidableEq α] (q : Sequence α) (x : α) : Sequence α :=
  if x ∈ q.toList then ofList (q.toList.filter (· ≠ x)) else q

@[simp]
theorem toList_empty : (empty : Sequence α).toList = [] :=
  rfl

@[simp]
theorem toList_push (q : Sequence α) (x : α) : (q.push x).toList = q.toList ++ [x] := by
  simp [toList, push]

@[simp]
theorem length_toList (q : Sequence α) : q.toList.length = q.size := by
  simp [toList, size]

@[simp]
theorem toList_append (q : Sequence α) (xs : List α) :
    (q.append xs).toList = q.toList ++ xs := by
  induction xs generalizing q with
  | nil => simp [append]
  | cons x xs ih =>
    have h : q.append (x :: xs) = (q.push x).append xs := rfl
    simp [h, ih]

@[simp]
theorem toList_ofList (xs : List α) : (ofList xs).toList = xs := by
  simp [ofList]

theorem get?_eq (q : Sequence α) (i : Nat) : q.get? i = q.toList[i]? := by
  simp [get?, toList]

end Sequence

end NodeSchema

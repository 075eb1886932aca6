import NodeSchema.Sequence
import Mathlib.Algebra.Ring.Nat
import Mathlib.Data.List.Forall2
import Mathlib.Order.Bounds.Basic

/-!
# Sequences and their histories

A sequence is compared with its capacity, which is a field of its own. It is known from what the
sequence holds: growing, giving the buffer up and writing back what is left after some elements are
taken out all lead to the least capacity that a growing buffer can have for this many elements.

* `replay`: the sequence to which a list of events leads. `kept`: what these events leave in it, said
  without the sequence.
* `Tight`: **the capacity is the one that belongs to the number of elements.** `Tight.push` is the
  step, where a full buffer is doubled.
* `follows_replay`: every history leads to what it leaves, in a buffer of this capacity.
* `Tight.alike_iff`: two such sequences are alike exactly if their elements are.
-/

namespace NodeSchema.Sequence

variable {α : Type}

/-! ### Histories -/

/-- What can happen to a sequence. -/
inductive Event (α : Type) where
  /-- An element is added at the end. -/
  | write (x : α)
  /-- The buffer is given up. -/
  | free
  /-- All elements are taken out. -/
  | take
  /-- The sequence goes on as a copy of it. -/
  | clone
  /-- The elements of a kind are taken out, if there are any, and the other ones are written back. -/
  | detach (p : α → Bool)

/-- The sequence after an event. -/
def undergo (q : Sequence α) : Event α → Sequence α
  | .write x => q.push x
  | .free => q.clear
  | .take => q.take.2
  | .clone => ⟨q.capacity, q.elements⟩
  | .detach p => if q.toList.any p then ofList (q.toList.filter fun x => !p x) else q

/-- The sequence after some events, from the one without a buffer. -/
def replay (events : List (Event α)) : Sequence α :=
  events.foldl undergo empty

/-- Whether an event takes an element out that is there. -/
def Event.removes (x : α) : Event α → Bool
  | .write _ | .clone => false
  | .free | .take => true
  | .detach p => p x

/-- **What events leave in a sequence**: what is written and is taken out by no later event, in the
order in which it is written. -/
def kept : List (Event α) → List α
  | [] => []
  | .write x :: rest => if rest.any (·.removes x) then kept rest else x :: kept rest
  | _ :: rest => kept rest

/-- What an event adds stays unless a later one takes it out. -/
theorem kept_cons (e : Event α) (rest : List (Event α)) :
    kept (e :: rest) = ((kept [e]).filter fun x => !rest.any (·.removes x)) ++ kept rest := by
  cases e with
  | write x =>
    have hone : kept [Event.write x] = [x] := rfl
    rw [kept, hone, List.filter_singleton]
    cases rest.any (·.removes x) <;> rfl
  | _ => rfl

theorem toList_undergo (q : Sequence α) (e : Event α) :
    (q.undergo e).toList = (q.toList.filter fun x => !e.removes x) ++ kept [e] := by
  cases e with
  | write x => simp [undergo, Event.removes, kept]
  | free => simp [undergo, Event.removes, kept, clear]
  | take => simp [undergo, Event.removes, kept, take]
  | clone => simp [undergo, Event.removes, kept, toList]
  | detach p =>
    simp only [undergo, Event.removes, kept, List.append_nil]
    split_ifs with h
    · exact toList_ofList _
    · rw [List.filter_eq_self.2]
      intro x hx
      have hp : ¬ p x := fun e => h (List.any_eq_true.2 ⟨x, hx, e⟩)
      simpa using hp

/-- What is there before the events stays unless one of them takes it out. -/
theorem toList_foldl_undergo (q : Sequence α) (events : List (Event α)) :
    (events.foldl undergo q).toList =
      (q.toList.filter fun x => !events.any (·.removes x)) ++ kept events := by
  induction events generalizing q with
  | nil => simp [kept]
  | cons e rest ih =>
    rw [List.foldl_cons, ih, toList_undergo, List.filter_append, List.filter_filter,
      kept_cons e rest, List.append_assoc]
    simp only [List.any_cons, Bool.not_or, Bool.and_comm]

theorem toList_replay (events : List (Event α)) : (replay events).toList = kept events := by
  rw [replay, toList_foldl_undergo, toList_empty]
  rfl

/-! ### Capacities -/

/-- **The capacity is the one that belongs to the number of elements**: none for an empty sequence, and
otherwise the least of the capacities of a growing buffer that is enough. -/
structure Tight (q : Sequence α) : Prop where
  capacity_eq_zero_iff : q.capacity = 0 ↔ q.toList = []
  hasBuffer_eq_false_iff : q.hasBuffer = false ↔ q.toList = []
  isLeast : q.toList ≠ [] → IsLeast {c | (∃ k, c = 8 * 2 ^ k) ∧ q.toList.length ≤ c} q.capacity

/-- Whether there is a buffer is read off the capacity. -/
theorem tight_of_capacity {q : Sequence α} (hzero : q.capacity = 0 ↔ q.toList = [])
    (hleast : q.toList ≠ [] →
      IsLeast {c | (∃ k, c = 8 * 2 ^ k) ∧ q.toList.length ≤ c} q.capacity) : q.Tight := by
  refine ⟨hzero, ?_, hleast⟩
  rw [← hzero, hasBuffer, decide_eq_false_iff_not, Nat.not_lt, Nat.le_zero]

theorem tight_empty : (empty : Sequence α).Tight :=
  tight_of_capacity (by simp [empty, toList]) (by simp)

theorem growCapacity_pow (k : Nat) : growCapacity (8 * 2 ^ k) = 8 * 2 ^ (k + 1) := by
  have hpos : 0 < 2 ^ k := Nat.two_pow_pos k
  rw [growCapacity, minCapacity, if_neg (by omega), Nat.pow_succ, Nat.mul_assoc]

/-- The capacity after a capacity is the next one. -/
theorem pow_succ_le {k j : Nat} (h : 8 * 2 ^ k < 8 * 2 ^ j) : 8 * 2 ^ (k + 1) ≤ 8 * 2 ^ j := by
  have hpow : 2 ^ k < 2 ^ j := Nat.lt_of_mul_lt_mul_left h
  have hkj : k < j := (Nat.pow_lt_pow_iff_right (by decide)).1 hpow
  exact Nat.mul_le_mul_left 8 (Nat.pow_le_pow_right (by decide) hkj)

/-- The least capacity for one more element is the old one if that is enough, and the next one if the
buffer is full. -/
theorem Tight.isLeast_push {q : Sequence α} (hq : q.Tight) (x : α) :
    IsLeast {c | (∃ k, c = 8 * 2 ^ k) ∧ q.toList.length + 1 ≤ c} (q.push x).capacity := by
  have hcap : (q.push x).capacity =
      if q.capacity < q.toList.length + 1 then growCapacity q.capacity else q.capacity := by
    rw [length_toList]
    rfl
  rw [hcap]
  by_cases hnil : q.toList = []
  · rw [hq.capacity_eq_zero_iff.2 hnil, hnil]
    refine ⟨⟨⟨0, rfl⟩, (by decide : 1 ≤ 8)⟩, ?_⟩
    rintro c ⟨⟨k, rfl⟩, -⟩
    exact Nat.le_mul_of_pos_right 8 (Nat.two_pow_pos k)
  · obtain ⟨⟨⟨k, hk⟩, hle⟩, hmin⟩ := hq.isLeast hnil
    split_ifs with hfull
    · have hlen : q.toList.length = 8 * 2 ^ k := by omega
      rw [hk, growCapacity_pow, hlen]
      refine ⟨⟨⟨k + 1, rfl⟩, ?_⟩, ?_⟩
      · have hpos : 0 < 2 ^ k := Nat.two_pow_pos k
        rw [Nat.pow_succ]
        omega
      · rintro c ⟨⟨j, rfl⟩, hc⟩
        exact pow_succ_le hc
    · refine ⟨⟨⟨k, hk⟩, by omega⟩, ?_⟩
      rintro c ⟨hc, hlen⟩
      exact hmin ⟨hc, by omega⟩

theorem Tight.push {q : Sequence α} (hq : q.Tight) (x : α) : (q.push x).Tight := by
  have hleast := hq.isLeast_push x
  have hpos : 0 < (q.push x).capacity := Nat.lt_of_lt_of_le (Nat.succ_pos _) hleast.1.2
  refine tight_of_capacity (by simp [Nat.ne_of_gt hpos]) fun _ => ?_
  rwa [toList_push, List.length_append, List.length_singleton]

theorem Tight.append {q : Sequence α} (hq : q.Tight) (xs : List α) : (q.append xs).Tight := by
  induction xs generalizing q with
  | nil => exact hq
  | cons x xs ih => exact ih (hq.push x)

/-- **Whatever happens to a sequence keeps its capacity in step.** -/
theorem Tight.undergo {q : Sequence α} (hq : q.Tight) (e : Event α) : (q.undergo e).Tight := by
  cases e with
  | write x => exact hq.push x
  | free => exact tight_empty
  | take => exact tight_empty
  | clone => exact hq
  | detach p =>
    simp only [Sequence.undergo]
    split_ifs
    · exact tight_empty.append _
    · exact hq

theorem Tight.foldl_undergo {q : Sequence α} (hq : q.Tight) (events : List (Event α)) :
    (events.foldl Sequence.undergo q).Tight := by
  induction events generalizing q with
  | nil => exact hq
  | cons e rest ih => exact ih (hq.undergo e)

/-- Sequences with the same elements have the same capacity. -/
theorem Tight.capacity_eq {β : Type} {q : Sequence α} {q' : Sequence β} (hq : q.Tight)
    (hq' : q'.Tight) (hlen : q.toList.length = q'.toList.length) : q.capacity = q'.capacity := by
  by_cases hnil : q.toList = []
  · have hnil' : q'.toList = [] := by
      rw [hnil] at hlen
      exact List.length_eq_zero_iff.1 hlen.symm
    rw [hq.capacity_eq_zero_iff.2 hnil, hq'.capacity_eq_zero_iff.2 hnil']
  · have hnil' : q'.toList ≠ [] := by
      intro e
      rw [e] at hlen
      exact hnil (List.length_eq_zero_iff.1 hlen)
    have hleast := hq.isLeast hnil
    rw [hlen] at hleast
    exact hleast.unique (hq'.isLeast hnil')

/-- **The sequence is what its history leaves, in a buffer of the least capacity.** -/
structure Follows (q : Sequence α) (events : List (Event α)) : Prop extends q.Tight where
  content : q.toList = kept events
  /-- Up to this length, the capacity is a number of 64 bits. -/
  fits : q.toList.length < 2 ^ 63 → q.capacity < 2 ^ 64

theorem Tight.fits {q : Sequence α} (hq : q.Tight) (hlen : q.toList.length < 2 ^ 63) :
    q.capacity < 2 ^ 64 := by
  by_cases hnil : q.toList = []
  · rw [hq.capacity_eq_zero_iff.2 hnil]
    decide
  · have hle : q.capacity ≤ 8 * 2 ^ 60 := (hq.isLeast hnil).2 ⟨⟨60, rfl⟩, by omega⟩
    omega

theorem follows_replay (events : List (Event α)) : (replay events).Follows events :=
  have htight : (replay events).Tight := tight_empty.foldl_undergo events
  ⟨htight, toList_replay events, htight.fits⟩

/-! ### Comparing -/

/-- Two sequences are alike when they have the same capacity and elements that are related one by
one. -/
def Alike (R : α → α → Prop) (q q' : Sequence α) : Prop :=
  q.capacity = q'.capacity ∧ List.Forall₂ R q.toList q'.toList

/-- **Sequences are alike exactly if their elements are.** -/
theorem Tight.alike_iff {q q' : Sequence α} (hq : q.Tight) (hq' : q'.Tight) (R : α → α → Prop) :
    Alike R q q' ↔ List.Forall₂ R q.toList q'.toList :=
  and_iff_right_of_imp fun h => hq.capacity_eq hq' h.length_eq

theorem Tight.eq_iff {q q' : Sequence α} (hq : q.Tight) (hq' : q'.Tight) :
    q = q' ↔ q.toList = q'.toList := by
  constructor
  · rintro rfl
    rfl
  · intro h
    have hcap := hq.capacity_eq hq' (congrArg List.length h)
    obtain ⟨capacity, elements⟩ := q
    obtain ⟨capacity', elements'⟩ := q'
    cases hcap
    cases Array.toList_inj.1 h
    rfl

end NodeSchema.Sequence

import NodeSchema.Store.Basic

/-!
# Releasing trees

Releasing a node releases everything that it owns. The cells become free in the order in which their
nodes go: a node before its children, and the last child of a node before the earlier ones.

* `Store.vacate` takes one node out of its cell.
* `Store.release` works off a stack of nodes.
-/

namespace NodeSchema.Store

variable {r : Registry}

/-- The number of cells with a node. -/
def occupied (s : Store r) : Nat :=
  s.cells.countP (·.node?.isSome)

/-- Takes the node of a handle out of its cell, which goes on to the next generation. -/
def vacate (s : Store r) (h : Handle) : Store r where
  cells := s.cells.setIfInBounds h.index ⟨h.generation + 1, none⟩
  free := h.index :: s.free
  size := s.size - 1

/-- The cell of a node holds the node under the generation of the handle. -/
theorem getElem?_of_get? {s : Store r} {h : Handle} {n : Node r} (hn : s.get? h = some n) :
    s.cells[h.index]? = some ⟨h.generation, some n⟩ := by
  unfold get? at hn
  split at hn
  · rename_i c hc
    split at hn
    · rename_i hg
      rw [hc, ← hg, ← hn]
    · cases hn
  · cases hn

theorem occupied_vacate_add_one {s : Store r} {h : Handle} {n : Node r} (hn : s.get? h = some n) :
    (s.vacate h).occupied + 1 = s.occupied := by
  obtain ⟨hi, hc⟩ := Array.getElem?_eq_some_iff.1 (getElem?_of_get? hn)
  have hp : 0 < s.cells.countP (·.node?.isSome) :=
    Array.countP_pos_iff.2 ⟨_, Array.getElem_mem hi, by simp [hc]⟩
  have hset : (s.cells.set h.index ⟨h.generation + 1, none⟩).countP (·.node?.isSome) =
      s.cells.countP (·.node?.isSome) - 1 := by
    rw [Array.countP_set]
    simp [hc]
  rw [occupied, vacate, Array.setIfInBounds_def, dif_pos hi, hset, occupied]
  omega

theorem occupied_vacate {s : Store r} {h : Handle} {n : Node r} (hn : s.get? h = some n) :
    (s.vacate h).occupied < s.occupied := by
  have := occupied_vacate_add_one hn
  omega

/-- **Only the node that leaves its cell becomes stale.** -/
theorem get?_vacate {s : Store r} {h : Handle} {n : Node r} (hn : s.get? h = some n) (k : Handle) :
    (s.vacate h).get? k = if k = h then none else s.get? k := by
  have hcell := getElem?_of_get? hn
  have hi : h.index < s.cells.size := (Array.getElem?_eq_some_iff.1 hcell).1
  by_cases he : h.index = k.index
  · have hnone : (s.vacate h).get? k = none := by
      simp only [get?, vacate, ← he, Array.getElem?_setIfInBounds_self, if_pos hi]
      split <;> rfl
    rw [hnone]
    by_cases hk : k = h
    · rw [if_pos hk]
    · have hg : h.generation ≠ k.generation := fun e => hk (by cases h; cases k; simp_all)
      rw [if_neg hk]
      simp only [get?, ← he, hcell, if_neg hg]
  · rw [if_neg fun hk => he (by rw [hk])]
    simp only [get?, vacate, Array.getElem?_setIfInBounds_ne he]

/-- Releases the nodes of a stack with all that they own, and counts them. Stale handles do not
count. -/
def release : List Handle → Store r → Nat × Store r
  | [], s => (0, s)
  | h :: stack, s =>
    match _hn : s.get? h with
    | none => release stack s
    | some n =>
      let (count, t) := release (n.children.reverse ++ stack) (s.vacate h)
      (count + 1, t)
termination_by stack s => (s.occupied, stack.length)
decreasing_by
  · exact Prod.Lex.right _ (Nat.lt_succ_self _)
  · exact Prod.Lex.left _ _ (occupied_vacate _hn)

/-- Takes a node away from the slots of another one. -/
def detach (s : Store r) (h c : Handle) : Store r :=
  s.update h fun n => { n with slots := n.slots.map (·.erase c) }

/-- Releases a node with all that it owns, and counts them. A node that is owned is taken away from
its owner first. -/
def freeTree (root : Handle) : StoreM r Nat := do
  let n ← (← get).node root
  if let some owner := n.owner then modify (·.detach owner root)
  modifyGet (release [root])

end NodeSchema.Store

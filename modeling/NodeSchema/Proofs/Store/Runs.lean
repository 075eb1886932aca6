import NodeSchema.Proofs.Store.Subtree

/-!
# What holds in every run

Every action keeps the invariant `OK`, whether it is refused or not and whatever handles it is
given, so every store that a run reaches satisfies it.

* `forest_run`: after every run the live nodes form a forest, and no slot and no owner is a stale
  handle.
* `freeTree_run`: after every run, releasing a tree releases exactly what the root owns.
-/

namespace NodeSchema.Store

variable {r : Registry} {s : Store r}

theorem OK.of_effect (hs : s.OK) {a : Action} {x : Except Error Answer} {t : Store r}
    (he : s.Effect a x t) : t.OK := by
  cases he with
  | refused => exact hs
  | allocate variant line f v kind hv hk =>
    have hshape := Registry.shape_of_discriminatorOf? hv hk
    exact hs.insert (Node.shapeOK_fresh hshape line) (Node.children_fresh _ _ _ _) rfl
  | setValue h field text p old hp hslot => exact hs.setValue hp hslot
  | setChild h field c p previous hp hslot => exact hs.linkChild hp hslot
  | pushChild h field c p nodes hp hslot => exact hs.linkLast hp hslot
  | mark h n hn => exact hs.mark (node_eq_ok_iff.1 hn)
  | clearMarks => exact hs.unmarked
  | freeTree root n hn => exact hs.freeTree hn

/-- **Every action keeps the invariant.** -/
theorem OK.perform (hs : s.OK) (a : Action) : (s.perform a).2.OK :=
  hs.of_effect (s.perform_effect a)

theorem run_append (s : Store r) (as bs : List Action) :
    s.run (as ++ bs) = ((s.run as).1 ++ ((s.run as).2.run bs).1, ((s.run as).2.run bs).2) := by
  induction as generalizing s with
  | nil => rfl
  | cons a as ih => simp [Store.run, ih]

theorem run_concat (s : Store r) (as : List Action) (a : Action) :
    (s.run (as ++ [a])).2 = ((s.run as).2.perform a).2 := by
  rw [run_append]
  rfl

/-- **Every run keeps the invariant.** -/
theorem OK.run (hs : s.OK) (actions : List Action) : (s.run actions).2.OK := by
  induction actions generalizing s with
  | nil => exact hs
  | cons a rest ih => exact ih (hs.perform a)

theorem ok_run (r : Registry) (actions : List Action) : ((empty : Store r).run actions).2.OK :=
  OK.empty.run actions

/-- **The forest.** After every run of actions, with any handles and whether they succeed or not,
the live nodes form a forest and the slots and the owners agree on it. -/
theorem forest_run (r : Registry) (actions : List Action) :
    ((empty : Store r).run actions).2.Forest :=
  (ok_run r actions).forest

/-- **Releasing a tree**, after every run of actions. It is refused, and changes nothing, exactly if
the root is stale. Otherwise it gives the number of nodes below the root, and takes away these nodes
and nothing else. -/
theorem freeTree_run (r : Registry) (actions : List Action) (root : Handle) :
    let s := ((empty : Store r).run actions).2
    (s.perform (.freeTree root) = (.error (.staleNode root.index), s) ↔ s.get? root = none) ∧
      ∀ n, s.get? root = some n → ∃ gone t,
        s.perform (.freeTree root) = (.ok (.count gone.length), t) ∧ s.Freed root n gone t := by
  intro s
  have hs : s.OK := ok_run r actions
  rw [perform_freeTree]
  cases hn : s.get? root with
  | none => simp
  | some n =>
    refine ⟨by simp, fun m hm => ?_⟩
    cases hm
    obtain ⟨gone, hcount, hfreed⟩ := hs.exists_freed hn
    exact ⟨gone, _, by simp only [hcount], hfreed⟩

/-- A name, and a call that gets it for its callee. -/
def callActions : List Action :=
  [.allocate "Name" 1, .allocate "Call" 2, .setChild ⟨1, 0⟩ "callee" ⟨0, 0⟩]

end NodeSchema.Store

import NodeSchema.Proofs.Store.Step

/-!
# Owners of owners

The way from a node up along the owners, as a relation and as the bounded walk that `Store.lineage`
makes.

* `Rooted`: the way up from a node ends, after finitely many steps, at a node without an owner.
* `Rooted.transfer`: what a change of the store has to keep so that the way up still ends.
* `mem_lineage_iff`: the walk is long enough. It meets a node exactly if that node is above the
  first one, because the nodes on a way up are distinct and have cells of their own.
-/

namespace NodeSchema.Store

variable {r : Registry} {s t : Store r}

/-- `s.Up h a`: the node `a` is `h`, or owns it directly or through others. -/
def Up (s : Store r) : Handle → Handle → Prop :=
  Relation.ReflTransGen fun h p => s.ownerOf h = some p

theorem up_iff {h : Handle} (a : Handle) :
    s.Up h a ↔ a = h ∨ ∃ p, s.ownerOf h = some p ∧ s.Up p a := by
  constructor
  · intro hup
    rcases Relation.ReflTransGen.cases_head hup with he | hp
    · exact Or.inl he.symm
    · exact Or.inr hp
  · rintro (he | ⟨p, hp, hup⟩)
    · rw [he]
      exact Relation.ReflTransGen.refl
    · exact Relation.ReflTransGen.head hp hup

/-- The way up from a node ends at a node without an owner. -/
inductive Rooted (s : Store r) : Handle → Prop
  | top (h : Handle) (n : Node r) : s.get? h = some n → n.owner = none → Rooted s h
  | step (h : Handle) (n : Node r) (p : Handle) :
      s.get? h = some n → n.owner = some p → Rooted s p → Rooted s h

/-- **The way up in a changed store.** It ends if each node on it is kept, with its owner or with
none. -/
theorem Rooted.transfer {P : Handle → Prop}
    (hstep : ∀ k n, P k → s.get? k = some n → ∃ m, t.get? k = some m ∧
      (m.owner = none ∨ m.owner = n.owner ∧ ∀ p, n.owner = some p → P p))
    {h : Handle} (hr : s.Rooted h) : P h → t.Rooted h := by
  induction hr with
  | top h n hn ho =>
    intro hP
    obtain ⟨m, hm, hmo⟩ := hstep h n hP hn
    refine Rooted.top h m hm ?_
    rcases hmo with hmo | ⟨hmo, -⟩
    · exact hmo
    · rw [hmo, ho]
  | step h n p hn ho _ ih =>
    intro hP
    obtain ⟨m, hm, hmo⟩ := hstep h n hP hn
    rcases hmo with hmo | ⟨hmo, hPp⟩
    · exact Rooted.top h m hm hmo
    · exact Rooted.step h m p hm (by rw [hmo, ho]) (ih (hPp p ho))

/-- **No node is above its own owner.** -/
theorem Rooted.not_up_owner {h : Handle} (hr : s.Rooted h) :
    ∀ p, s.ownerOf h = some p → ¬ s.Up p h := by
  induction hr with
  | top h n hn ho =>
    intro p hp
    rw [ownerOf_eq hn, ho] at hp
    cases hp
  | step h n p hn ho _ ih =>
    intro p' hp' hup
    have hpp : p = p' := by
      rw [ownerOf_eq hn, ho] at hp'
      exact Option.some.inj hp'
    subst hpp
    -- a way from `p` to `h` starts with a step to the owner of `p`, and goes on from `h` to `p`
    rcases (up_iff h).1 hup with he | ⟨q, hq, hqh⟩
    · subst he
      exact ih h hp' Relation.ReflTransGen.refl
    · exact ih q hq (hqh.tail hp')

/-- The whole way up from a node, as a list that the bounded walk runs through. -/
theorem Rooted.exists_owners {h : Handle} (hr : s.Rooted h) :
    ∃ l, (∀ k, s.ownersUp k h = l.take k) ∧ (h :: l).Nodup ∧
      (∀ a ∈ h :: l, ∃ n, s.get? a = some n) ∧ ∀ a, s.Up h a ↔ a ∈ h :: l := by
  induction hr with
  | top h n hn ho =>
    refine ⟨[], ?_, List.nodup_singleton h, ?_, ?_⟩
    · intro k
      cases k with
      | zero => rfl
      | succ k => simp [ownersUp, hn, ho]
    · intro a ha
      rw [List.mem_singleton] at ha
      exact ⟨n, by rw [ha, hn]⟩
    · intro a
      rw [up_iff, ownerOf_eq hn, ho]
      simp
  | step h n p hn ho hrp ih =>
    obtain ⟨l, hwalk, hnd, hlive, hmem⟩ := ih
    have hp : s.ownerOf h = some p := by rw [ownerOf_eq hn, ho]
    -- a node is not above its own owner, so no node comes twice
    have hnot : h ∉ p :: l := by
      intro hm
      exact (Rooted.step h n p hn ho hrp).not_up_owner p hp ((hmem h).2 hm)
    refine ⟨p :: l, ?_, List.nodup_cons.2 ⟨hnot, hnd⟩, ?_, ?_⟩
    · intro k
      cases k with
      | zero => rfl
      | succ k => simp [ownersUp, hn, ho, hwalk k]
    · intro a ha
      rcases List.mem_cons.1 ha with ha | ha
      · exact ⟨n, by rw [ha, hn]⟩
      · exact hlive a ha
    · intro a
      rw [List.mem_cons, ← hmem a, up_iff, hp]
      simp

/-- Distinct nodes have distinct cells, so there are at most as many as cells. -/
theorem length_le_cells {l : List Handle} (hnd : l.Nodup)
    (hlive : ∀ a ∈ l, ∃ n, s.get? a = some n) : l.length ≤ s.cells.size := by
  have hinj : (l.map Handle.index).Nodup := by
    refine List.Nodup.map_on ?_ hnd
    intro a ha b hb hab
    obtain ⟨n, hn⟩ := hlive a ha
    obtain ⟨m, hm⟩ := hlive b hb
    exact eq_of_index_eq hn hm hab
  have hsub : l.map Handle.index ⊆ List.range s.cells.size := by
    intro i hi
    obtain ⟨a, ha, rfl⟩ := List.mem_map.1 hi
    obtain ⟨n, hn⟩ := hlive a ha
    exact List.mem_range.2 (index_lt_of_get? hn)
  have hlen := (List.subperm_of_subset hinj hsub).length_le
  rw [List.length_map, List.length_range] at hlen
  exact hlen

/-- **The walk up is complete**: it meets a node exactly if that node is above the first one. -/
theorem mem_lineage_iff {h : Handle} (hr : s.Rooted h) (a : Handle) :
    a ∈ s.lineage h ↔ s.Up h a := by
  obtain ⟨l, hwalk, hnd, hlive, hmem⟩ := hr.exists_owners
  -- the walk may take as many steps as there are cells, and the way up is not longer
  have hlen := length_le_cells hnd hlive
  rw [List.length_cons] at hlen
  unfold lineage
  rw [hwalk, List.take_of_length_le (by omega), hmem a]

end NodeSchema.Store

import NodeSchema.Store.Action
import Mathlib.Data.List.Nodup
import Mathlib.Data.List.Perm.Subperm
import Mathlib.Logic.Relation
import Mathlib.Tactic.SplitIfs
import Mathlib.Tactic.Tauto

/-!
# What the operations do to a store

Every action of a store either fails and leaves the store alone, or inserts a node, or changes nodes
in place, or takes a tree away. This module says what these do to the view `Store.get?`, and that
they keep the cells, the free list and the number of nodes in step.

* `CellsOK`: the free list names each cell without a node once, and the size counts the nodes.
* `SameCells`: a change in place keeps what the free list depends on.
* `get?_insert`: a new node gets a handle that was stale, and no other handle changes its meaning.
* `ownerOf`, `childrenOf`: the two records of who holds a node.
-/

namespace NodeSchema

/-- What the free list depends on: the generation of a cell and whether it has a node. -/
def Cell.outline {r : Registry} (c : Cell r) : UInt32 × Bool :=
  (c.generation, c.node?.isSome)

namespace Store

variable {r : Registry} {s t : Store r}

/-! ### Cells -/

/-- The cells, the free list and the number of nodes agree. -/
structure CellsOK (s : Store r) : Prop where
  nodup : s.free.Nodup
  free : ∀ i, i ∈ s.free ↔ ∃ g, s.cells[i]? = some ⟨g, none⟩
  size : s.size = s.occupied

/-- Two stores with the same cells occupied, under the same generations. -/
structure SameCells (s t : Store r) : Prop where
  free : t.free = s.free
  size : t.size = s.size
  cells : t.cells.map Cell.outline = s.cells.map Cell.outline

theorem SameCells.refl (s : Store r) : SameCells s s :=
  ⟨rfl, rfl, rfl⟩

theorem SameCells.trans {u : Store r} (h : SameCells s t) (h' : SameCells t u) : SameCells s u :=
  ⟨h'.free.trans h.free, h'.size.trans h.size, h'.cells.trans h.cells⟩

theorem SameCells.occupied (h : SameCells s t) : t.occupied = s.occupied := by
  have hcount := congrArg (Array.countP Prod.snd) h.cells
  rw [Array.countP_map, Array.countP_map] at hcount
  exact hcount

theorem vacant_iff (s : Store r) (i : ℕ) :
    (∃ g, s.cells[i]? = some ⟨g, none⟩) ↔
      ∃ g, (s.cells.map Cell.outline)[i]? = some (g, false) := by
  rw [Array.getElem?_map]
  refine exists_congr fun g => ?_
  constructor
  · intro h
    rw [h]; rfl
  · intro h
    obtain ⟨⟨g', n⟩, hc, ho⟩ := Option.map_eq_some_iff.1 h
    cases n with
    | none => rw [hc]; simp_all [Cell.outline]
    | some n => simp [Cell.outline] at ho

/-- **Cells stay in step when nodes change in place.** -/
theorem CellsOK.of_same (hs : s.CellsOK) (h : SameCells s t) : t.CellsOK where
  nodup := by rw [h.free]; exact hs.nodup
  free := by
    intro i
    rw [h.free, hs.free i, vacant_iff, vacant_iff, h.cells]
  size := by rw [h.size, h.occupied]; exact hs.size

theorem cellsOK_empty : (empty : Store r).CellsOK :=
  ⟨List.nodup_nil, by simp [empty], rfl⟩

/-- Changing a node in place fills and empties no cell. -/
theorem sameCells_update (s : Store r) (h : Handle) (f : Node r → Node r) :
    SameCells s (s.update h f) := by
  refine ⟨rfl, rfl, Array.ext_getElem? fun i => ?_⟩
  simp only [update, Array.getElem?_map, Array.getElem?_modify]
  split
  · cases s.cells[i]? with
    | none => rfl
    | some c =>
      simp only [Option.map_some, Cell.outline]
      split <;> simp
  · rfl

/-! ### Views -/

/-- A node is found exactly under a live handle. -/
theorem node_eq_ok_iff {h : Handle} {n : Node r} : s.node h = .ok n ↔ s.get? h = some n := by
  unfold node
  cases s.get? h <;> simp

theorem node_eq_error_iff {h : Handle} {e : Error} :
    s.node h = .error e ↔ s.get? h = none ∧ e = .staleNode h.index := by
  unfold node
  cases s.get? h <;> simp [eq_comm]

/-- The owner of a node. -/
def ownerOf (s : Store r) (h : Handle) : Option Handle :=
  (s.get? h).bind (·.owner)

/-- The nodes that a node holds. A stale handle holds none. -/
def childrenOf (s : Store r) (h : Handle) : List Handle :=
  ((s.get? h).map (·.children)).getD []

theorem ownerOf_eq {h : Handle} {n : Node r} (hn : s.get? h = some n) : s.ownerOf h = n.owner := by
  simp [ownerOf, hn]

theorem childrenOf_eq {h : Handle} {n : Node r} (hn : s.get? h = some n) :
    s.childrenOf h = n.children := by
  simp [childrenOf, hn]

theorem exists_of_ownerOf {h p : Handle} (hp : s.ownerOf h = some p) :
    ∃ n, s.get? h = some n ∧ n.owner = some p :=
  Option.bind_eq_some_iff.1 hp

theorem exists_of_mem_childrenOf {h p : Handle} (hh : h ∈ s.childrenOf p) :
    ∃ n, s.get? p = some n ∧ h ∈ n.children := by
  cases hp : s.get? p with
  | none => simp [childrenOf, hp] at hh
  | some n => exact ⟨n, rfl, by rwa [childrenOf_eq hp] at hh⟩

theorem index_lt_of_get? {h : Handle} {n : Node r} (hn : s.get? h = some n) :
    h.index < s.cells.size :=
  (Array.getElem?_eq_some_iff.1 (getElem?_of_get? hn)).1

/-- One cell holds one node: two live handles with one index are equal. -/
theorem eq_of_index_eq {h k : Handle} {n m : Node r} (hn : s.get? h = some n)
    (hm : s.get? k = some m) (hi : h.index = k.index) : h = k := by
  have h1 := getElem?_of_get? hn
  have h2 := getElem?_of_get? hm
  rw [hi, h2] at h1
  cases h; cases k
  simp_all

/-- **The view after one node has changed in place.** -/
theorem get?_update (s : Store r) (h k : Handle) (f : Node r → Node r) :
    (s.update h f).get? k = if k = h then (s.get? k).map f else s.get? k := by
  by_cases hk : k = h
  · rw [if_pos hk, hk, get?_update_self]
  · rw [if_neg hk, get?_update_ne s hk]

theorem get?_empty (h : Handle) : (empty : Store r).get? h = none := by
  simp [get?, empty]

/-! ### Inserting and vacating -/

/-- What `insert` does: it fills the cell that was vacated last, or a new one. -/
theorem insert_cases (hs : s.CellsOK) (n : Node r) :
    (∃ i g free, s.free = i :: free ∧ s.cells[i]? = some ⟨g, none⟩ ∧
      s.insert n = (⟨i, g⟩, ⟨s.cells.setIfInBounds i ⟨g, some n⟩, free, s.size + 1⟩)) ∨
    (s.free = [] ∧
      s.insert n = (⟨s.cells.size, 0⟩, ⟨s.cells.push ⟨0, some n⟩, [], s.size + 1⟩)) := by
  cases hf : s.free with
  | nil => exact Or.inr ⟨rfl, by rw [insert, hf]⟩
  | cons i free =>
    obtain ⟨g, hg⟩ := (hs.free i).1 (by rw [hf]; exact List.mem_cons_self)
    refine Or.inl ⟨i, g, free, rfl, hg, ?_⟩
    rw [insert, hf]
    simp only [hg]
    rfl

/-- The handle of a new node was stale. -/
theorem get?_insert_self (hs : s.CellsOK) (n : Node r) : s.get? (s.insert n).1 = none := by
  rcases insert_cases hs n with ⟨i, g, free, -, hc, heq⟩ | ⟨-, heq⟩
  · rw [heq]
    simp [get?, hc]
  · rw [heq]
    simp [get?]

/-- **The view after a node was inserted.** Only the new handle changes its meaning. -/
theorem get?_insert (hs : s.CellsOK) (n : Node r) (k : Handle) :
    (s.insert n).2.get? k = if k = (s.insert n).1 then some n else s.get? k := by
  rcases insert_cases hs n with ⟨i, g, free, -, hc, heq⟩ | ⟨-, heq⟩
  · have hi : i < s.cells.size := (Array.getElem?_eq_some_iff.1 hc).1
    rw [heq]
    -- the cell was vacant, so every handle of its index was stale
    by_cases hk : i = k.index
    · have hnone : s.get? k = none := by simp [get?, ← hk, hc]
      rw [hnone]
      simp only [get?, ← hk, Array.getElem?_setIfInBounds_self, if_pos hi]
      by_cases hg : g = k.generation
      · rw [if_pos hg, if_pos (by rw [hk, hg])]
      · rw [if_neg hg, if_neg fun h => hg (by rw [h])]
    · rw [if_neg fun h => hk (by rw [h])]
      simp only [get?, Array.getElem?_setIfInBounds_ne hk]
  · rw [heq]
    by_cases hk : k.index = s.cells.size
    · have hnone : s.get? k = none := by simp [get?, hk]
      rw [hnone]
      simp only [get?, hk, Array.getElem?_push_size]
      by_cases hg : (0 : UInt32) = k.generation
      · rw [if_pos hg, if_pos (by rw [← hk, hg])]
      · rw [if_neg hg, if_neg fun h => hg (by rw [h])]
    · rw [if_neg fun h => hk (by rw [h])]
      simp only [get?, Array.getElem?_push, if_neg hk]

/-- A new node without owner and children changes neither record. -/
theorem ownerOf_insert (hs : s.CellsOK) {n : Node r} (hn : n.owner = none) (k : Handle) :
    (s.insert n).2.ownerOf k = s.ownerOf k := by
  unfold ownerOf
  rw [get?_insert hs n k]
  split_ifs with hk
  · rw [hk, get?_insert_self hs n]
    exact hn
  · rfl

theorem childrenOf_insert (hs : s.CellsOK) {n : Node r} (hn : n.children = []) (k : Handle) :
    (s.insert n).2.childrenOf k = s.childrenOf k := by
  unfold childrenOf
  rw [get?_insert hs n k]
  split_ifs with hk
  · rw [hk, get?_insert_self hs n]
    exact hn
  · rfl

/-- The cells stay in step when a node is inserted. -/
theorem cellsOK_insert (hs : s.CellsOK) (n : Node r) : (s.insert n).2.CellsOK := by
  rcases insert_cases hs n with ⟨i, g, free, hf, hc, heq⟩ | ⟨hf, heq⟩
  · obtain ⟨hi, hci⟩ := Array.getElem?_eq_some_iff.1 hc
    -- the cell is taken off the free list, which named it once
    have hnd := hs.nodup
    rw [hf, List.nodup_cons] at hnd
    rw [heq]
    refine ⟨hnd.2, fun j => ?_, ?_⟩
    · simp only
      by_cases hj : i = j
      · subst hj
        simp [hi, hnd.1]
      · rw [Array.getElem?_setIfInBounds_ne hj, ← hs.free j, hf, List.mem_cons]
        exact ⟨Or.inr, fun h => h.resolve_left fun e => hj e.symm⟩
    · simp only [occupied, Array.setIfInBounds_def, dif_pos hi]
      rw [Array.countP_set, hs.size, occupied]
      simp [hci]
  · rw [heq]
    refine ⟨List.nodup_nil, fun j => ?_, ?_⟩
    · have hj := hs.free j
      rw [hf] at hj
      simp only [Array.getElem?_push]
      split
      · simp
      · exact hj
    · simp only [occupied]
      rw [Array.countP_push, hs.size, occupied]
      simp

/-- The cells stay in step when a node is removed. -/
theorem cellsOK_vacate (hs : s.CellsOK) {h : Handle} {n : Node r} (hn : s.get? h = some n) :
    (s.vacate h).CellsOK := by
  have hcell := getElem?_of_get? hn
  have hi : h.index < s.cells.size := index_lt_of_get? hn
  -- the cell had a node, so the free list does not name it yet
  have hfree : h.index ∉ s.free := by
    intro hm
    obtain ⟨g, hg⟩ := (hs.free _).1 hm
    rw [hcell] at hg
    simp at hg
  refine ⟨List.nodup_cons.2 ⟨hfree, hs.nodup⟩, fun i => ?_, ?_⟩
  · simp only [vacate, List.mem_cons]
    by_cases hj : h.index = i
    · subst hj
      simp [hi]
    · rw [Array.getElem?_setIfInBounds_ne hj, ← hs.free i]
      exact ⟨fun hm => hm.resolve_left fun e => hj e.symm, Or.inr⟩
  · have hocc := occupied_vacate_add_one hn
    have hsize := hs.size
    simp only [vacate] at hocc ⊢
    omega

end Store

end NodeSchema

import NodeSchema.Proofs.Store.Generations
import NodeSchema.Proofs.Store.Reading
import Mathlib.Data.List.Range
import Mathlib.Order.Bounds.Basic

/-!
# What a collector relies on

Three records say which nodes are live: the cells that have a node, the number of nodes and the free
cells. They agree in every store that a run reaches (`Ledger`). A new cell is made only when no cell
is free, so there are as many cells as there were nodes at one time. The mark of a node says that the
node was marked since it was made and since the marks were cleared, whatever else has happened.

* `mem_handles_iff`, `CellsOK.perm_range`: the live nodes, and that each cell has one of them or is free.
* `OK.size_cells_of_effect`, `isGreatest_size`: when a cell is made, and how many there are.
* `OK.marked_perform`: what one action does to the mark of a node.
* `OK.marked_run_iff`: what the mark of a node says about the run.
* `collector_run`: all of this after every run.
-/

namespace NodeSchema.Store

variable {r : Registry} {s t : Store r}

/-! ### The live nodes -/

theorem mem_handles_iff {h : Handle} : h ∈ s.handles ↔ s.contains h := by
  unfold handles
  rw [List.mem_filterMap]
  constructor
  · rintro ⟨⟨c, i⟩, hc, hh⟩
    obtain ⟨n, hn, rfl⟩ := Option.map_eq_some_iff.1 hh
    rw [List.mem_zipIdx_iff_getElem?, Array.getElem?_toList] at hc
    have hget : s.get? ⟨i, c.generation⟩ = some n := by
      simp [get?, hc, hn]
    exact contains_of_get? hget
  · intro hh
    obtain ⟨n, hn⟩ := Option.isSome_iff_exists.1 hh
    have hc := getElem?_of_get? hn
    refine ⟨(⟨h.generation, some n⟩, h.index), ?_, rfl⟩
    rw [List.mem_zipIdx_iff_getElem?, Array.getElem?_toList]
    exact hc

/-- The live nodes come in the order of their cells. -/
theorem pairwise_handles (s : Store r) : (s.handles.map Handle.index).Pairwise (· < ·) := by
  have hcells : s.cells.toList.zipIdx.Pairwise fun a b => a.2 < b.2 := by
    rw [← List.pairwise_map, List.zipIdx_map_snd]
    exact List.pairwise_lt_range'
  rw [List.pairwise_map, handles, List.pairwise_filterMap]
  refine hcells.imp ?_
  rintro ⟨c, i⟩ ⟨d, j⟩ hij h hh k hk
  obtain ⟨n, -, rfl⟩ := Option.map_eq_some_iff.1 hh
  obtain ⟨m, -, rfl⟩ := Option.map_eq_some_iff.1 hk
  exact hij

theorem CellsOK.free_iff (hs : s.CellsOK) {i : ℕ} :
    i ∈ s.free ↔ i < s.cells.size ∧ ∀ h ∈ s.handles, h.index ≠ i := by
  rw [hs.free i]
  constructor
  · rintro ⟨g, hg⟩
    refine ⟨(Array.getElem?_eq_some_iff.1 hg).1, ?_⟩
    rintro h hh rfl
    obtain ⟨n, hn⟩ := Option.isSome_iff_exists.1 (mem_handles_iff.1 hh)
    rw [getElem?_of_get? hn] at hg
    cases hg
  · rintro ⟨hi, hlive⟩
    refine ⟨s.cells[i].generation, ?_⟩
    cases hn : s.cells[i].node? with
    | none => rw [Array.getElem?_eq_getElem hi, ← hn]
    | some n =>
      -- the node of the cell is one of the live nodes
      have hget : s.get? ⟨i, s.cells[i].generation⟩ = some n := by
        simp [get?, hi, hn]
      exact (hlive _ (mem_handles_iff.2 (contains_of_get? hget)) rfl).elim

/-- **Each cell is that of one live node, or is free.** -/
theorem CellsOK.perm_range (hs : s.CellsOK) :
    (s.handles.map Handle.index ++ s.free).Perm (List.range s.cells.size) := by
  have hlive : (s.handles.map Handle.index).Nodup :=
    (pairwise_handles s).imp fun hlt => Nat.ne_of_lt hlt
  have hnodup : (s.handles.map Handle.index ++ s.free).Nodup := by
    refine List.nodup_append.2 ⟨hlive, hs.nodup, ?_⟩
    rintro i hi j hj rfl
    obtain ⟨h, hh, rfl⟩ := List.mem_map.1 hi
    exact (hs.free_iff.1 hj).2 h hh rfl
  refine (List.perm_ext_iff_of_nodup hnodup List.nodup_range).2 fun i => ?_
  rw [List.mem_append, hs.free_iff, List.mem_range]
  constructor
  · rintro (hi | ⟨hi, -⟩)
    · obtain ⟨h, hh, rfl⟩ := List.mem_map.1 hi
      obtain ⟨n, hn⟩ := Option.isSome_iff_exists.1 (mem_handles_iff.1 hh)
      exact index_lt_of_get? hn
    · exact hi
  · intro hi
    by_cases hmem : i ∈ s.handles.map Handle.index
    · exact .inl hmem
    · exact .inr ⟨hi, fun h hh e => hmem (List.mem_map.2 ⟨h, hh, e⟩)⟩

theorem length_handles (s : Store r) : s.handles.length = s.occupied := by
  rw [handles, List.length_filterMap_eq_countP, occupied, ← Array.countP_toList]
  conv_rhs => rw [← List.zipIdx_map_fst 0 s.cells.toList, List.countP_map]
  refine List.countP_congr fun c _ => ?_
  rw [Option.isSome_map]
  rfl

/-- **The records of which nodes are live agree.** -/
structure Ledger (s : Store r) : Prop where
  /-- The handles in the list are those of the live nodes. -/
  live : ∀ h, h ∈ s.handles ↔ s.contains h
  /-- They come in the order of their cells, each once. -/
  ordered : (s.handles.map Handle.index).Pairwise (· < ·)
  size : s.size = s.handles.length
  /-- A free cell is one without a live node. -/
  free : ∀ i, i ∈ s.free ↔ i < s.cells.size ∧ ∀ h ∈ s.handles, h.index ≠ i
  free_nodup : s.free.Nodup

theorem CellsOK.ledger (hs : s.CellsOK) : s.Ledger where
  live := fun _ => mem_handles_iff
  ordered := pairwise_handles s
  size := by rw [hs.size, length_handles]
  free := fun _ => hs.free_iff
  free_nodup := hs.nodup

/-! ### How many cells there are -/

theorem length_free_add_size (hs : s.CellsOK) : s.size + s.free.length = s.cells.size := by
  have hlen := hs.perm_range.length_eq
  rw [List.length_append, List.length_map, length_handles, List.length_range] at hlen
  rw [hs.size, hlen]

theorem SameCells.size_cells (h : SameCells s t) : t.cells.size = s.cells.size := by
  have hsize := congrArg Array.size h.cells
  rwa [Array.size_map, Array.size_map] at hsize

theorem size_cells_release (stack : List Handle) (s : Store r) :
    (release stack s).2.cells.size = s.cells.size := by
  induction stack, s using release.induct with
  | case1 s => rw [release]
  | case2 h stack s hn ih => rw [release_stale hn, ih]
  | case3 h stack s n hn _ _ _ ih =>
    rw [release_live hn]
    simp only [ih]
    exact Array.size_setIfInBounds

/-- A new node takes a free cell. If there is none, every cell has a node then. -/
theorem insert_cells (hs : s.CellsOK) (n : Node r) :
    (s.insert n).1.index ∈ s.free ∧ (s.insert n).2.cells.size = s.cells.size ∨
      s.free = [] ∧ (s.insert n).2.cells.size = s.cells.size + 1 ∧
        (s.insert n).2.size = (s.insert n).2.cells.size := by
  rcases insert_cases hs n with ⟨i, g, free, hf, -, heq⟩ | ⟨hf, heq⟩
  · rw [heq, hf]
    exact .inl ⟨List.mem_cons_self, Array.size_setIfInBounds⟩
  · have hfull := length_free_add_size hs
    rw [hf, List.length_nil, Nat.add_zero] at hfull
    rw [heq, ← hfull]
    exact .inr ⟨hf, by rw [Array.size_push, hfull], by rw [Array.size_push, hfull]⟩

/-- **A new cell is made only when every cell has a node.** -/
theorem OK.size_cells_of_effect (hs : s.OK) {a : Action} {x : Except Error Answer}
    (he : s.Effect a x t) :
    t.cells.size = s.cells.size ∨ s.cells.size ≤ t.cells.size ∧ t.size = t.cells.size := by
  cases he with
  | refused => exact .inl rfl
  | allocate variant line f v kind =>
    rcases insert_cells hs.cells (.fresh f v kind line) with ⟨-, hsize⟩ | ⟨-, hsize, hfull⟩
    · exact .inl hsize
    · exact .inr ⟨by omega, hfull⟩
  | setValue h => exact .inl (sameCells_update s h _).size_cells
  | setChild h field c p previous => exact .inl (sameCells_linkChild s p previous h c).size_cells
  | pushChild h field c p nodes => exact .inl (sameCells_linkLast s p nodes h c).size_cells
  | mark h => exact .inl (sameCells_update s h _).size_cells
  | clearMarks => exact .inl (sameCells_unmarked s).size_cells
  | freeTree root n =>
    refine .inl ?_
    rw [size_cells_release, (sameCells_isolate s n root).size_cells]

/-- A new node goes into a free cell, if there is one. -/
theorem OK.cells_of_allocate (hs : s.OK) {name : String} {line : ℕ} {h : Handle}
    (he : s.Effect (.allocate name line) (.ok (.made h)) t) (hfree : s.free ≠ []) :
    h.index ∈ s.free ∧ t.cells.size = s.cells.size := by
  cases he with
  | allocate _ _ f v kind =>
    rcases insert_cells hs.cells (.fresh f v kind line) with hfilled | ⟨hnone, -⟩
    · exact hfilled
    · exact (hfree hnone).elim

/-- The numbers of nodes that a store has in the course of a run. -/
def sizesIn (s : Store r) (actions : List Action) : Set ℕ :=
  {n | ∃ before, before <+: actions ∧ (s.run before).2.size = n}

/-- **There are as many cells as there were nodes at one time.** -/
theorem isGreatest_size (r : Registry) (actions : List Action) :
    IsGreatest ((empty : Store r).sizesIn actions)
      ((empty : Store r).run actions).2.cells.size := by
  induction actions using List.reverseRecOn with
  | nil =>
    refine ⟨⟨[], List.prefix_refl _, rfl⟩, ?_⟩
    rintro n ⟨before, hbefore, rfl⟩
    rw [List.prefix_nil.1 hbefore]
    exact Nat.le_refl 0
  | append_singleton as a ih =>
    obtain ⟨⟨peak, hpeak, hsize⟩, hle⟩ := ih
    have hs : ((empty : Store r).run as).2.OK := ok_run r as
    have hstep := hs.size_cells_of_effect (perform_effect _ a)
    rw [← run_concat] at hstep
    have hmono : ((empty : Store r).run as).2.cells.size ≤
        ((empty : Store r).run (as ++ [a])).2.cells.size := by
      omega
    constructor
    · rcases hstep with hstep | ⟨-, hfull⟩
      · exact ⟨peak, hpeak.trans (List.prefix_append as [a]), by rw [hsize, hstep]⟩
      · exact ⟨as ++ [a], List.prefix_refl _, hfull⟩
    · rintro n ⟨before, hbefore, rfl⟩
      rcases List.prefix_concat_iff.1 hbefore with rfl | hbefore
      -- there are no more nodes than cells
      · have hfree := length_free_add_size (ok_run r (as ++ [a])).cells
        omega
      · exact (hle ⟨before, hbefore, rfl⟩).trans hmono

/-! ### Marks -/

/-- An action that is not about marks leaves them alone, and a new node has none. -/
theorem OK.marked_of_effect (hs : s.OK) {a : Action} {x : Except Error Answer} (he : s.Effect a x t)
    (hmark : ∀ k, a ≠ .mark k) (hclear : a ≠ .clearMarks) {h : Handle} {m : Node r}
    (hm : t.get? h = some m) :
    (x = .ok (.made h) ∧ m.marked = false) ∨ ∃ n, s.get? h = some n ∧ m.marked = n.marked := by
  have hwrote : ∀ {k i g owner}, s.Wrote t k i g owner → ∃ n, s.get? h = some n ∧
      m.marked = n.marked := by
    intro k i g owner hw
    rw [hw h] at hm
    obtain ⟨n, hn, rfl⟩ := Option.map_eq_some_iff.1 hm
    exact ⟨n, hn, rfl⟩
  cases he with
  | refused => exact .inr ⟨m, hm, rfl⟩
  | allocate variant line f v kind =>
    rw [get?_insert hs.cells] at hm
    split_ifs at hm with hh
    · cases hm
      exact .inl ⟨by rw [hh], rfl⟩
    · exact .inr ⟨m, hm, rfl⟩
  | setValue k field text p => exact .inr (hwrote (s.wrote_setSlot k p.index _))
  | setChild k field c p previous => exact .inr (hwrote (s.wrote_linkChild p previous k c))
  | pushChild k field c p nodes => exact .inr (hwrote (s.wrote_linkLast p nodes k c))
  | mark k => exact (hmark k rfl).elim
  | clearMarks => exact (hclear rfl).elim
  | freeTree root n hn =>
    rw [hs.get?_release hn hm] at hm
    obtain ⟨m', hm', rfl⟩ := Option.map_eq_some_iff.1 hm
    exact .inr ⟨m', hm', rfl⟩

theorem get?_perform_mark (s : Store r) (k h : Handle) :
    (s.perform (.mark k)).2.get? h = (s.get? h).map fun n =>
      { n with marked := n.marked || h = k } := by
  rw [perform_mark]
  cases hn : s.node k with
  | error e =>
    by_cases hh : h = k
    · rw [hh, (node_eq_error_iff.1 hn).1]
      rfl
    · simp [hh]
  | ok n =>
    simp only [get?_update]
    by_cases hh : h = k <;> simp [hh]

/-- **What one action does to the mark of a node.** -/
theorem OK.marked_perform (hs : s.OK) {a : Action} {h : Handle} {m : Node r}
    (hm : (s.perform a).2.get? h = some m) :
    ((s.perform a).1 = .ok (.made h) ∧ m.marked = false) ∨
      ∃ n, s.get? h = some n ∧ (m.marked ↔ a = .mark h ∨ n.marked ∧ a ≠ .clearMarks) := by
  by_cases hmark : ∃ k, a = .mark k
  · obtain ⟨k, rfl⟩ := hmark
    rw [get?_perform_mark] at hm
    obtain ⟨n, hn, rfl⟩ := Option.map_eq_some_iff.1 hm
    have hne : Action.mark k ≠ .clearMarks := by simp
    refine .inr ⟨n, hn, ?_⟩
    rw [Action.mark.injEq, and_iff_left hne, Bool.or_eq_true, decide_eq_true_eq, or_comm, eq_comm]
  by_cases hclear : a = .clearMarks
  · subst hclear
    rw [perform_clearMarks, get?_unmarked] at hm
    obtain ⟨n, hn, rfl⟩ := Option.map_eq_some_iff.1 hm
    exact .inr ⟨n, hn, by simp⟩
  have hmark' : ∀ k, a ≠ .mark k := fun k e => hmark ⟨k, e⟩
  rcases hs.marked_of_effect (s.perform_effect a) hmark' hclear hm with hnew | ⟨n, hn, hmn⟩
  · exact .inl hnew
  · exact .inr ⟨n, hn, by simp [hmn, hmark' h, hclear]⟩

/-! ### Marks in a run -/

theorem mem_made_iff {h : Handle} {answers : List (Except Error Answer)} :
    h ∈ made answers ↔ .ok (.made h) ∈ answers := by
  unfold made
  rw [List.mem_filterMap]
  constructor
  · rintro ⟨x, hx, hxh⟩
    split at hxh
    · cases hxh
      exact hx
    · cases hxh
  · exact fun hx => ⟨_, hx, rfl⟩

/-- No mark is cleared by these actions, and the handle is not given to a new node. -/
def KeepsMark (s : Store r) (h : Handle) (actions : List Action) : Prop :=
  .clearMarks ∉ actions ∧ h ∉ made (s.run actions).1

/-- **A run has marked the node of `h`**: at one point it marks it, which is not refused, and after
that the mark is kept. -/
def MarkedIn (s : Store r) (h : Handle) (actions : List Action) : Prop :=
  ∃ before after, actions = before ++ .mark h :: after ∧
    (∃ b, ((s.run before).2.perform (.mark h)).1 = .ok (.flag b)) ∧
    (s.run (before ++ [.mark h])).2.KeepsMark h after

theorem keepsMark_cons {h : Handle} {a : Action} {rest : List Action} :
    s.KeepsMark h (a :: rest) ↔
      a ≠ .clearMarks ∧ (s.perform a).1 ≠ .ok (.made h) ∧ (s.perform a).2.KeepsMark h rest := by
  have hrun : (s.run (a :: rest)).1 = (s.perform a).1 :: ((s.perform a).2.run rest).1 := rfl
  unfold KeepsMark
  rw [mem_made_iff, mem_made_iff, hrun, List.mem_cons, List.mem_cons]
  tauto

theorem mark_ok_iff {h : Handle} :
    (∃ b, (s.perform (.mark h)).1 = .ok (.flag b)) ↔ s.contains h := by
  rw [perform_mark, node, Store.contains]
  cases s.get? h <;> simp

theorem markedIn_cons {h : Handle} {a : Action} {rest : List Action} :
    s.MarkedIn h (a :: rest) ↔
      (a = .mark h ∧ s.contains h ∧ (s.perform a).2.KeepsMark h rest) ∨
        (s.perform a).2.MarkedIn h rest := by
  constructor
  · rintro ⟨before, after, heq, hok, hkeeps⟩
    cases before with
    | nil =>
      obtain ⟨rfl, rfl⟩ := List.cons_eq_cons.1 heq
      exact .inl ⟨rfl, mark_ok_iff.1 hok, hkeeps⟩
    | cons a' before =>
      obtain ⟨rfl, rfl⟩ := List.cons_eq_cons.1 heq
      exact .inr ⟨before, after, rfl, hok, hkeeps⟩
  · rintro (⟨rfl, hlive, hkeeps⟩ | ⟨before, after, rfl, hok, hkeeps⟩)
    · exact ⟨[], rest, rfl, mark_ok_iff.2 hlive, hkeeps⟩
    · exact ⟨a :: before, after, rfl, hok, hkeeps⟩

/-- A node that is live at the end was live from the start, unless it is a new one. -/
theorem OK.contains_of_run (hs : s.OK) {h : Handle} {actions : List Action}
    (hlive : (s.run actions).2.contains h) (hmade : h ∉ made (s.run actions).1) :
    s.contains h := by
  induction actions generalizing s with
  | nil => exact hlive
  | cons a rest ih =>
    rw [mem_made_iff] at hmade
    obtain ⟨ha, hrest⟩ := List.ne_and_not_mem_of_not_mem_cons hmade
    have hnext := ih (hs.perform a) hlive (mem_made_iff.not.2 hrest)
    obtain ⟨m, hm⟩ := Option.isSome_iff_exists.1 hnext
    rcases hs.marked_perform hm with ⟨hnew, -⟩ | ⟨n, hn, -⟩
    · exact (ha hnew.symm).elim
    · exact contains_of_get? hn

/-- A node that is live after an action is marked if the action marks it, or if it was marked before
and the action keeps the mark. -/
theorem OK.marked_step (hs : s.OK) {a : Action} {h : Handle}
    (hlive : (s.perform a).2.contains h) :
    (∃ n, (s.perform a).2.get? h = some n ∧ n.marked) ↔
      (a = .mark h ∧ s.contains h) ∨ (∃ n, s.get? h = some n ∧ n.marked) ∧
        a ≠ .clearMarks ∧ (s.perform a).1 ≠ .ok (.made h) := by
  obtain ⟨m, hm⟩ := Option.isSome_iff_exists.1 hlive
  have hleft : (∃ n, (s.perform a).2.get? h = some n ∧ n.marked) ↔ m.marked := by
    rw [hm]
    simp
  rw [hleft]
  rcases hs.marked_perform hm with ⟨hnew, hmarked⟩ | ⟨n, hn, hmarked⟩
  -- a new node has a handle that was stale
  · have hstale : ¬ s.contains h := fun hc => (hs.new_handle hnew).1 (.inl hc)
    simp [hmarked, hstale, hnew]
  · have hc : s.contains h := contains_of_get? hn
    have hold : (s.perform a).1 ≠ .ok (.made h) := fun hnew => (hs.new_handle hnew).1 (.inl hc)
    rw [hmarked, hn]
    simp [hc, hold]

/-- **What the mark of a node says about a run**: the run has marked the node, or the node was marked
before and the mark was kept. -/
theorem OK.marked_run_iff (hs : s.OK) {h : Handle} {actions : List Action} {m : Node r}
    (hm : (s.run actions).2.get? h = some m) :
    m.marked ↔ s.MarkedIn h actions ∨
      (∃ n, s.get? h = some n ∧ n.marked) ∧ s.KeepsMark h actions := by
  induction actions generalizing s with
  | nil =>
    have hnone : ¬ s.MarkedIn h [] := by
      rintro ⟨before, after, heq, -⟩
      simp at heq
    have hkeeps : s.KeepsMark h [] := ⟨List.not_mem_nil, List.not_mem_nil⟩
    have hget : s.get? h = some m := hm
    simp [hnone, hkeeps, hget]
  | cons a rest ih =>
    rw [ih (hs.perform a) hm, markedIn_cons, keepsMark_cons]
    by_cases hkeeps : (s.perform a).2.KeepsMark h rest
    · have hlive := (hs.perform a).contains_of_run (contains_of_get? hm) hkeeps.2
      rw [hs.marked_step hlive]
      tauto
    · tauto

/-! ### Runs -/

theorem isMarked_of_get? {h : Handle} {n : Node r} (hn : s.get? h = some n) :
    s.isMarked h = .ok n.marked := by
  rw [isMarked, node_eq_ok_iff.2 hn]
  rfl

theorem OK.isMarked_perform (hs : s.OK) {a : Action} {h : Handle} (hbefore : s.contains h)
    (hafter : (s.perform a).2.contains h) (hmark : a ≠ .mark h) (hclear : a ≠ .clearMarks) :
    (s.perform a).2.isMarked h = s.isMarked h := by
  obtain ⟨m, hm⟩ := Option.isSome_iff_exists.1 hafter
  rcases hs.marked_perform hm with ⟨hnew, -⟩ | ⟨n, hn, hmarked⟩
  · exact ((hs.new_handle hnew).1 (.inl hbefore)).elim
  · rw [isMarked_of_get? hm, isMarked_of_get? hn]
    refine congrArg Except.ok (Bool.eq_iff_iff.2 ?_)
    rw [hmarked]
    simp [hmark, hclear]

/-- **What a collector relies on**, after every run of actions. The list of live nodes, their number
and the free cells agree. There are as many cells as there were nodes at one time, and a new node goes
into a free cell if there is one. The mark of a live node says whether the run has marked it since it
was made and since marks were cleared. Marking a node tells what its mark was, and no other action on
a node that stays live changes its mark. -/
theorem collector_run (r : Registry) (actions : List Action) :
    let s := ((empty : Store r).run actions).2
    s.Ledger ∧
    IsGreatest ((empty : Store r).sizesIn actions) s.cells.size ∧
    (∀ name line h t, s.perform (.allocate name line) = (.ok (.made h), t) → s.free ≠ [] →
      h.index ∈ s.free ∧ t.cells.size = s.cells.size) ∧
    (∀ h, s.contains h →
      ∃ b, s.isMarked h = .ok b ∧ (b ↔ (empty : Store r).MarkedIn h actions)) ∧
    (∀ h, (s.perform (.mark h)).1 = .flag <$> s.isMarked h) ∧
    (∀ a h, s.contains h → (s.perform a).2.contains h → a ≠ .mark h → a ≠ .clearMarks →
      (s.perform a).2.isMarked h = s.isMarked h) := by
  intro s
  have hs : s.OK := ok_run r actions
  refine ⟨hs.cells.ledger, isGreatest_size r actions, ?_, ?_, ?_, ?_⟩
  · intro name line h t ha hfree
    have he := s.perform_effect (.allocate name line)
    rw [ha] at he
    exact hs.cells_of_allocate he hfree
  · intro h hh
    obtain ⟨m, hm⟩ := Option.isSome_iff_exists.1 hh
    refine ⟨m.marked, isMarked_of_get? hm, ?_⟩
    rw [OK.empty.marked_run_iff hm]
    simp [get?_empty]
  · intro h
    rw [perform_mark, isMarked]
    cases s.node h <;> rfl
  · exact fun a h hbefore hafter hmark hclear => hs.isMarked_perform hbefore hafter hmark hclear

end NodeSchema.Store

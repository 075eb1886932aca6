import NodeSchema.Proofs.Registry.Build
import NodeSchema.Proofs.Store.Refusal

/-!
# Generations

The generation of a cell counts the nodes that the cell has lost. As long as no cell has lost as many
of them as there are generations, the count never comes back to an earlier value: the handle of a node
that was released stays stale, and is not given to another node.

* `OK.turn`: what one action does to one cell.
* `OK.generation_run`: the generation counts the losses, if no cell runs out of generations
  (`Bounded`).
* `Spent`, `Known`: the handles whose nodes are gone for good, and these together with those of the
  live nodes. Both only grow (`OK.spent_run`, `OK.known_perform`).
* `OK.not_known_of_mem_made`: a new node gets a handle that was not known before.
* `stale_run`: **in a run, new handles are distinct, and every operation on the handle of a released
  node is refused from then on.**
-/

namespace NodeSchema.Store

variable {r : Registry} {s t : Store r}

/-! ### One cell -/

/-- The generation of a cell and whether it has a node. A cell that is not there yet counts as one of
generation 0 without a node. -/
def outline (s : Store r) (i : ℕ) : UInt32 × Bool :=
  ((s.cells[i]?).map Cell.outline).getD (0, false)

theorem contains_iff {h : Handle} : s.contains h ↔ s.outline h.index = (h.generation, true) := by
  unfold contains get? outline
  cases s.cells[h.index]? with
  | none => simp
  | some c => by_cases hg : c.generation = h.generation <;> simp [Cell.outline, hg]

theorem contains_of_get? {h : Handle} {n : Node r} (hn : s.get? h = some n) : s.contains h := by
  rw [contains, hn]
  rfl

/-- What an action does to the outline of a cell: nothing, or a node comes in, or the node goes. -/
inductive Turn : UInt32 × Bool → UInt32 × Bool → Prop
  | stays (o : UInt32 × Bool) : Turn o o
  | filled (g : UInt32) : Turn (g, false) (g, true)
  | vacated (g : UInt32) : Turn (g, true) (g + 1, false)

theorem SameCells.outline (h : SameCells s t) (i : ℕ) : t.outline i = s.outline i := by
  have hi := congrArg (·[i]?) h.cells
  simp only [Array.getElem?_map] at hi
  unfold Store.outline
  rw [hi]

theorem SameCells.turn (h : SameCells s t) (i : ℕ) : Turn (s.outline i) (t.outline i) := by
  rw [h.outline i]
  exact .stays _

theorem turn_insert (hs : s.CellsOK) (n : Node r) (i : ℕ) :
    Turn (s.outline i) ((s.insert n).2.outline i) := by
  rcases insert_cases hs n with ⟨j, g, free, -, hc, heq⟩ | ⟨-, heq⟩
  · rw [heq]
    by_cases hij : j = i
    · subst hij
      have hj : j < s.cells.size := (Array.getElem?_eq_some_iff.1 hc).1
      have hbefore : s.outline j = (g, false) := by
        rw [outline, hc]
        rfl
      rw [hbefore]
      simpa [outline, hj, Cell.outline] using Turn.filled g
    · simpa [outline, Array.getElem?_setIfInBounds_ne hij] using Turn.stays _
  · rw [heq]
    by_cases hi : i = s.cells.size
    · simpa [outline, hi, Cell.outline] using Turn.filled 0
    · simpa [outline, Array.getElem?_push, hi] using Turn.stays _

theorem outline_vacate {h : Handle} {n : Node r} (hn : s.get? h = some n) (i : ℕ) :
    (s.vacate h).outline i = if i = h.index then (h.generation + 1, false) else s.outline i := by
  have hi : h.index < s.cells.size := index_lt_of_get? hn
  unfold outline vacate
  by_cases he : h.index = i
  · subst he
    simp [hi, Cell.outline]
  · have he' : i ≠ h.index := fun e => he e.symm
    simp only [Array.getElem?_setIfInBounds_ne he, if_neg he']

theorem release_stale {h : Handle} (hn : s.get? h = none) (stack : List Handle) :
    release (h :: stack) s = release stack s := by
  rw [release]
  split
  · rfl
  · rename_i hn'
    rw [hn] at hn'
    cases hn'

/-- **The loop vacates a cell at most once**, and fills none. -/
theorem outline_release (stack : List Handle) (s : Store r) (i : ℕ) :
    (release stack s).2.outline i = s.outline i ∨
      ∃ g, s.outline i = (g, true) ∧ (release stack s).2.outline i = (g + 1, false) := by
  induction stack, s using release.induct with
  | case1 s =>
    rw [release]
    exact .inl rfl
  | case2 h stack s hn ih =>
    rw [release_stale hn]
    exact ih
  | case3 h stack s n hn _ _ _ ih =>
    rw [release_live hn]
    simp only
    rw [outline_vacate hn] at ih
    by_cases hi : i = h.index
    -- the cell of `h` is vacant from here on, so it stays as it is
    · rw [if_pos hi] at ih
      refine .inr ⟨h.generation, hi ▸ contains_iff.1 (contains_of_get? hn), ?_⟩
      rcases ih with ih | ⟨g, hg, -⟩
      · exact ih
      · cases hg
    · rw [if_neg hi] at ih
      exact ih

theorem OK.turn_of_effect (hs : s.OK) {a : Action} {x : Except Error Answer} (he : s.Effect a x t)
    (i : ℕ) : Turn (s.outline i) (t.outline i) := by
  cases he with
  | refused => exact .stays _
  | allocate => exact turn_insert hs.cells _ i
  | setValue h => exact (sameCells_update s h _).turn i
  | setChild h field c p previous => exact (sameCells_linkChild s p previous h c).turn i
  | pushChild h field c p nodes => exact (sameCells_linkLast s p nodes h c).turn i
  | mark h => exact (sameCells_update s h _).turn i
  | clearMarks => exact (sameCells_unmarked s).turn i
  | freeTree root n =>
    have hsame := (sameCells_isolate s n root).outline i
    rcases outline_release [root] (s.isolate n root) i with h | ⟨g, hg, h⟩
    · rw [h, hsame]
      exact .stays _
    · rw [hsame] at hg
      rw [h, hg]
      exact .vacated g

/-- **What an action does to a cell.** -/
theorem OK.turn (hs : s.OK) (a : Action) (i : ℕ) :
    Turn (s.outline i) ((s.perform a).2.outline i) :=
  hs.turn_of_effect (s.perform_effect a) i

/-! ### Counting -/

/-- How many nodes a cell loses when its outline changes from one to the other. -/
def losses (o o' : UInt32 × Bool) : ℕ :=
  if o.2 && !o'.2 then 1 else 0

/-- How often cell `i` loses its node in a run. -/
def releasesIn (s : Store r) (i : ℕ) : List Action → ℕ
  | [] => 0
  | a :: rest =>
    losses (s.outline i) ((s.perform a).2.outline i) + (s.perform a).2.releasesIn i rest

theorem releasesIn_le_length (s : Store r) (i : ℕ) (actions : List Action) :
    s.releasesIn i actions ≤ actions.length := by
  induction actions generalizing s with
  | nil => exact Nat.le_refl 0
  | cons a rest ih =>
    have hrest := ih (s.perform a).2
    have hone : losses (s.outline i) ((s.perform a).2.outline i) ≤ 1 := by
      unfold losses
      split <;> omega
    rw [releasesIn, List.length_cons]
    omega

theorem releasesIn_append (s : Store r) (i : ℕ) (as bs : List Action) :
    s.releasesIn i (as ++ bs) = s.releasesIn i as + (s.run as).2.releasesIn i bs := by
  induction as generalizing s with
  | nil => exact (Nat.zero_add _).symm
  | cons a as ih =>
    rw [List.cons_append, releasesIn, ih, releasesIn, Nat.add_assoc]
    rfl

/-- One action counts a loss, unless the generation is the last one. -/
theorem Turn.toNat {o o' : UInt32 × Bool} (h : Turn o o')
    (hb : o.1.toNat + losses o o' < UInt32.size) : o'.1.toNat = o.1.toNat + losses o o' := by
  cases h with
  | stays o => cases hb : o.2 <;> simp [losses, hb]
  | filled g => rfl
  | vacated g =>
    have hlt : g.toNat + 1 < UInt32.size := hb
    change (g + 1).toNat = g.toNat + 1
    rw [UInt32.toNat_add, UInt32.toNat_one]
    exact Nat.mod_eq_of_lt hlt

/-- No cell runs out of generations in a run. -/
def Bounded (s : Store r) (actions : List Action) : Prop :=
  ∀ i, (s.outline i).1.toNat + s.releasesIn i actions < UInt32.size

theorem Bounded.of_append {as bs : List Action} (hb : s.Bounded (as ++ bs)) : s.Bounded as := by
  intro i
  have hi := hb i
  rw [releasesIn_append] at hi
  omega

theorem Bounded.losses_lt {a : Action} {rest : List Action} (hb : s.Bounded (a :: rest)) (i : ℕ) :
    (s.outline i).1.toNat + losses (s.outline i) ((s.perform a).2.outline i) < UInt32.size := by
  have hi := hb i
  rw [releasesIn] at hi
  omega

theorem OK.bounded_perform (hs : s.OK) {a : Action} {rest : List Action}
    (hb : s.Bounded (a :: rest)) : (s.perform a).2.Bounded rest := by
  intro i
  have hi := hb i
  rw [releasesIn] at hi
  rw [(hs.turn a i).toNat (hb.losses_lt i)]
  omega

/-- **The generation of a cell counts its losses** in a run. -/
theorem OK.generation_run (hs : s.OK) {actions : List Action} (hb : s.Bounded actions) (i : ℕ) :
    ((s.run actions).2.outline i).1.toNat = (s.outline i).1.toNat + s.releasesIn i actions := by
  induction actions generalizing s with
  | nil => rfl
  | cons a rest ih =>
    have hstep := (hs.turn a i).toNat (hb.losses_lt i)
    have hrest := ih (hs.perform a) (hs.bounded_perform hb)
    rw [hstep] at hrest
    rw [releasesIn, ← Nat.add_assoc]
    exact hrest

theorem OK.bounded_run (hs : s.OK) {as bs : List Action} (hb : s.Bounded (as ++ bs)) :
    (s.run as).2.Bounded bs := by
  intro i
  have hi := hb i
  rw [releasesIn_append] at hi
  rw [hs.generation_run hb.of_append]
  omega

/-! ### Handles -/

/-- The cell of the handle has gone on to a later generation. -/
def Spent (s : Store r) (h : Handle) : Prop :=
  h.generation.toNat < (s.outline h.index).1.toNat

theorem Spent.get? {h : Handle} (hh : s.Spent h) : s.get? h = none := by
  rw [← Option.not_isSome_iff_eq_none]
  intro hc
  unfold Spent at hh
  rw [contains_iff.1 hc] at hh
  exact Nat.lt_irrefl _ hh

/-- The handle is that of a node, or was. -/
def Known (s : Store r) (h : Handle) : Prop :=
  s.contains h ∨ s.Spent h

theorem OK.spent_perform (hs : s.OK) {a : Action} {rest : List Action}
    (hb : s.Bounded (a :: rest)) {h : Handle} (hh : s.Spent h) : (s.perform a).2.Spent h := by
  unfold Spent at hh ⊢
  rw [(hs.turn a h.index).toNat (hb.losses_lt h.index)]
  omega

/-- **A spent handle stays spent**, as the generation of its cell only grows. -/
theorem OK.spent_run (hs : s.OK) {actions : List Action} (hb : s.Bounded actions) {h : Handle}
    (hh : s.Spent h) : (s.run actions).2.Spent h := by
  unfold Spent at hh ⊢
  rw [hs.generation_run hb]
  omega

/-- **A known handle stays known**: a node that goes leaves a later generation behind. -/
theorem OK.known_perform (hs : s.OK) {a : Action} {rest : List Action}
    (hb : s.Bounded (a :: rest)) {h : Handle} (hh : s.Known h) : (s.perform a).2.Known h := by
  rcases hh with hh | hh
  · have hlt := hb.losses_lt h.index
    have hturn := hs.turn a h.index
    have hgen := hturn.toNat hlt
    rw [contains_iff] at hh
    unfold Known Spent
    rw [contains_iff]
    generalize (s.perform a).2.outline h.index = o' at hturn hgen ⊢
    rw [hh] at hturn hgen
    cases hturn with
    | stays => exact .inl rfl
    | vacated =>
      refine .inr ?_
      rw [hgen]
      exact Nat.lt_succ_self _
  · exact .inr (hs.spent_perform hb hh)

/-- A node that an action takes away leaves a spent handle. -/
theorem OK.spent_of_gone (hs : s.OK) {a : Action} {rest : List Action}
    (hb : s.Bounded (a :: rest)) {h : Handle} (hh : s.contains h)
    (hgone : (s.perform a).2.get? h = none) : (s.perform a).2.Spent h := by
  rcases hs.known_perform hb (.inl hh) with hlive | hspent
  · rw [contains, hgone] at hlive
    cases hlive
  · exact hspent

/-! ### New handles -/

/-- The handles of the new nodes among some answers. -/
def made (answers : List (Except Error Answer)) : List Handle :=
  answers.filterMap fun
    | .ok (.made h) => some h
    | _ => none

theorem OK.new_of_effect (hs : s.OK) {a : Action} {h : Handle} (he : s.Effect a (.ok (.made h)) t) :
    ¬ s.Known h ∧ t.Known h := by
  cases he with
  | allocate variant line f v kind =>
    set n : Node r := .fresh f v kind line
    have hself := get?_insert hs.cells n (s.insert n).1
    rw [if_pos rfl] at hself
    refine ⟨?_, .inl (contains_of_get? hself)⟩
    rintro (hlive | hspent)
    · rw [contains, get?_insert_self hs.cells] at hlive
      cases hlive
    -- the handle has the generation that its cell had before
    · have hturn := turn_insert hs.cells n (s.insert n).1.index
      rw [contains_iff.1 (contains_of_get? hself)] at hturn
      unfold Spent at hspent
      generalize s.outline (s.insert n).1.index = o, (s.insert n).1.generation = g at hturn hspent
      cases hturn <;> exact Nat.lt_irrefl _ hspent

/-- **A new node gets a handle that was not known**, and its handle is known then. -/
theorem OK.new_handle (hs : s.OK) {a : Action} {h : Handle}
    (ha : (s.perform a).1 = .ok (.made h)) : ¬ s.Known h ∧ (s.perform a).2.Known h :=
  hs.new_of_effect (ha ▸ s.perform_effect a)

/-- The handles that a run makes were not known before. -/
theorem OK.not_known_of_mem_made (hs : s.OK) {actions : List Action} (hb : s.Bounded actions)
    {h : Handle} (hh : h ∈ made (s.run actions).1) : ¬ s.Known h := by
  induction actions generalizing s with
  | nil => cases hh
  | cons a rest ih =>
    intro hk
    obtain ⟨x, hx, hxh⟩ := List.mem_filterMap.1 hh
    rcases List.mem_cons.1 hx with rfl | hx
    · split at hxh
      · rename_i ha
        cases hxh
        exact (hs.new_handle ha).1 hk
      · cases hxh
    · exact ih (hs.perform a) (hs.bounded_perform hb) (List.mem_filterMap.2 ⟨x, hx, hxh⟩)
        (hs.known_perform hb hk)

/-- **No handle is made twice.** -/
theorem OK.made_nodup (hs : s.OK) {actions : List Action} (hb : s.Bounded actions) :
    (made (s.run actions).1).Nodup := by
  induction actions generalizing s with
  | nil => exact List.nodup_nil
  | cons a rest ih =>
    have hb' := hs.bounded_perform hb
    have hrest := ih (hs.perform a) hb'
    unfold made at hrest ⊢
    rw [Store.run, List.filterMap_cons]
    split
    · exact hrest
    · rename_i h hah
      split at hah
      · rename_i ha
        cases hah
        refine List.nodup_cons.2 ⟨fun hmem => ?_, hrest⟩
        exact (hs.perform a).not_known_of_mem_made hb' hmem (hs.new_handle ha).2
      · cases hah

/-! ### Runs -/

/-- What goes with a tree is spent from then on. -/
theorem OK.spent_freeTree (hs : s.OK) {root h : Handle} {later : List Action}
    (hb : s.Bounded (.freeTree root :: later)) (hr : s.contains root) (hbelow : s.Below root h) :
    (s.run (.freeTree root :: later)).2.Spent h := by
  obtain ⟨n, hn⟩ := Option.isSome_iff_exists.1 hr
  obtain ⟨gone, hcount, hfreed⟩ := hs.exists_freed hn
  have hgone : (s.perform (.freeTree root)).2.get? h = none := by
    rw [perform_freeTree, hn]
    exact (hfreed.stale h).2 (.inl ((hfreed.mem h).2 hbelow))
  -- a node below the root is held by a live node, so it is live
  have hlive : s.contains h := by
    rcases Relation.ReflTransGen.cases_tail hbelow with rfl | ⟨p, -, hp⟩
    · exact hr
    · obtain ⟨m, hm, -⟩ := exists_of_ownerOf ((hs.links p h).1 hp)
      exact contains_of_get? hm
  exact (hs.perform _).spent_run (hs.bounded_perform hb) (hs.spent_of_gone hb hlive hgone)

/-- **Stale handles stay stale**, in every run in which no cell loses `2 ^ 32` nodes. The run makes no
handle twice. When it releases a tree, every operation on the nodes of the tree is refused in every
store that it comes to afterwards, whatever happens to their cells. -/
theorem stale_run (r : Registry) (actions : List Action)
    (hb : ∀ i, (empty : Store r).releasesIn i actions < UInt32.size) :
    (made ((empty : Store r).run actions).1).Nodup ∧
      ∀ before root later, before ++ .freeTree root :: later <+: actions →
        ∀ h, let s := ((empty : Store r).run before).2
          s.contains root → s.Below root h →
            ((empty : Store r).run (before ++ .freeTree root :: later)).2.Refuses h := by
  have hbound : (empty : Store r).Bounded actions := by
    intro i
    simpa [outline, empty] using hb i
  refine ⟨OK.empty.made_nodup hbound, ?_⟩
  rintro before root later ⟨rest, rfl⟩ h s hr hbelow
  have hlater := OK.empty.bounded_run hbound.of_append
  have hspent := (ok_run r before).spent_freeTree hlater hr hbelow
  rw [run_append]
  exact refuses_of_get? hspent.get?

/-- A name that is the callee of a call goes with the call, and the new call in its cell does not
bring it back. -/
theorem stale_run_call :
    (made ((empty : Store callRegistry).run
        (callActions ++ [.freeTree ⟨1, 0⟩, .allocate "Call" 3])).1).Nodup ∧
      ((empty : Store callRegistry).run
        (callActions ++ [.freeTree ⟨1, 0⟩, .allocate "Call" 3])).2.Refuses ⟨0, 0⟩ := by
  obtain ⟨hmade, hstale⟩ := stale_run callRegistry
    (callActions ++ [.freeTree ⟨1, 0⟩, .allocate "Call" 3])
    fun i => Nat.lt_of_le_of_lt (releasesIn_le_length _ i _) (by decide)
  have hroot : ((empty : Store callRegistry).run callActions).2.contains ⟨1, 0⟩ := by
    decide +kernel
  have hbelow : ((empty : Store callRegistry).run callActions).2.Below ⟨1, 0⟩ ⟨0, 0⟩ :=
    Relation.ReflTransGen.single (by decide +kernel)
  exact ⟨hmade, hstale callActions ⟨1, 0⟩ _ (List.prefix_refl _) ⟨0, 0⟩ hroot hbelow⟩

end NodeSchema.Store

import NodeSchema.Proofs.Store.Forest

/-!
# Releasing subtrees

`Store.release` works off a stack. While it runs the store is no forest: the children of a node that
is gone are on the stack, and still have it as their owner. `Loose` is the invariant of the loop.

* `release_spec`: the loop takes away exactly the nodes below the stack, each once.
* `exists_freed`: **releasing a tree** takes away the nodes below the root, and changes nothing else
  than the one slot that held the root.
* `OK.freeTree`: what is left is a forest again.
-/

namespace NodeSchema

variable {r : Registry}

/-! ### Taking a node out of slots -/

/-- `slot.Without h slot'`: the first slot held `h`, and the second one holds the other nodes of it
in their order. -/
inductive Slot.Without (h : Handle) : Slot → Slot → Prop
  | child : Without h (.child (some h)) (.child none)
  | children (xs ys : Sequence Handle) : h ∈ xs.toList → ys.toList = xs.toList.filter (· ≠ h) →
      Without h (.children xs) (.children ys)

theorem Sequence.toList_erase (xs : Sequence Handle) (h : Handle) :
    (xs.erase h).toList = xs.toList.filter (· ≠ h) := by
  unfold Sequence.erase
  split_ifs with hm
  · rw [Sequence.toList_ofList]
  · rw [List.filter_eq_self.2]
    intro k hk
    simpa using fun e : k = h => hm (e ▸ hk)

theorem Slot.handles_erase (slot : Slot) (h : Handle) :
    (slot.erase h).handles = slot.handles.filter (· ≠ h) := by
  cases slot with
  | value text => rfl
  | child node =>
    cases node with
    | none => rfl
    | some k => by_cases hk : k = h <;> simp [Slot.erase, Slot.handles, hk]
  | children xs => exact xs.toList_erase h

@[simp]
theorem Slot.ownership_erase (slot : Slot) (h : Handle) :
    (slot.erase h).ownership = slot.ownership := by
  cases slot <;> rfl

theorem Slot.erase_of_not_mem {slot : Slot} {h : Handle} (hh : h ∉ slot.handles) :
    slot.erase h = slot := by
  cases slot with
  | value text => rfl
  | child node =>
    have hne : node ≠ some h := by
      intro e
      simp [Slot.handles, e] at hh
    simp [Slot.erase, hne]
  | children xs =>
    have hx : h ∉ xs.toList := hh
    simp [Slot.erase, Sequence.erase, hx]

theorem Slot.without_erase {slot : Slot} {h : Handle} (hh : h ∈ slot.handles) :
    slot.Without h (slot.erase h) := by
  cases slot with
  | value text => simp [Slot.handles] at hh
  | child node =>
    have hk : node = some h := by simpa [Slot.handles] using hh
    subst hk
    simpa [Slot.erase] using Slot.Without.child
  | children xs => exact Slot.Without.children xs _ hh (xs.toList_erase h)

theorem Node.children_erase (n : Node r) (h : Handle) :
    ({ n with slots := n.slots.map (·.erase h) } : Node r).children = n.children.filter (· ≠ h) := by
  unfold Node.children
  simp only
  rw [List.flatMap_map, List.filter_flatMap]
  exact List.flatMap_congr fun slot _ => slot.handles_erase h

theorem Node.shapeOK_erase {n : Node r} (hn : n.ShapeOK) (h : Handle) :
    ({ n with slots := n.slots.map (·.erase h) } : Node r).ShapeOK := by
  have hcomp : (Slot.ownership ∘ fun slot : Slot => slot.erase h) = Slot.ownership :=
    funext fun slot => slot.ownership_erase h
  exact hn.of_eq rfl (by rw [List.map_map, hcomp])

/-- **One slot holds a child**, and taking the child out of all slots changes that one. -/
theorem Node.exists_slot {n : Node r} {h : Handle} (hnd : n.children.Nodup) (hh : h ∈ n.children) :
    ∃ i slot, n.slots[i]? = some slot ∧ h ∈ slot.handles ∧
      (∀ j other, j ≠ i → n.slots[j]? = some other → h ∉ other.handles) ∧
      n.slots.map (·.erase h) = n.slots.set i (slot.erase h) := by
  obtain ⟨slot, hslot, hmem⟩ := List.mem_flatMap.1 hh
  obtain ⟨i, hi, rfl⟩ := List.getElem_of_mem hslot
  -- the slots are disjoint, as the children of the node are distinct
  have hpair := List.pairwise_iff_getElem.1 (List.nodup_flatMap.1 hnd).2
  have hother : ∀ j other, j ≠ i → n.slots[j]? = some other → h ∉ other.handles := by
    intro j other hj ho hho
    obtain ⟨hjl, rfl⟩ := List.getElem?_eq_some_iff.1 ho
    rcases Nat.lt_or_gt_of_ne hj with hlt | hlt
    · exact hpair j i hjl hi hlt hho hmem
    · exact hpair i j hi hjl hlt hmem hho
  refine ⟨i, n.slots[i], List.getElem?_eq_getElem hi, hmem, hother, ?_⟩
  apply List.ext_getElem?
  intro j
  rw [List.getElem?_map, List.getElem?_set]
  by_cases hj : i = j
  · subst hj
    simp [hi]
  · rw [if_neg hj]
    cases ho : n.slots[j]? with
    | none => rfl
    | some other =>
      rw [Option.map_some, Slot.erase_of_not_mem (hother j other (fun e => hj e.symm) ho)]

namespace Store

variable {s t : Store r}

/-- `s.Below root h`: the node `h` is `root`, or is held by it directly or through others. -/
def Below (s : Store r) : Handle → Handle → Prop :=
  Relation.ReflTransGen fun p h => h ∈ s.childrenOf p

/-! ### The loop -/

/-- The invariant of the loop: the nodes on the stack are live and distinct, and in no slot. -/
structure Loose (s : Store r) (stack : List Handle) : Prop where
  cells : s.CellsOK
  links : ∀ p h, h ∈ s.childrenOf p → s.ownerOf h = some p
  nodup : ∀ p, (s.childrenOf p).Nodup
  stack_nodup : stack.Nodup
  live : ∀ h ∈ stack, ∃ n, s.get? h = some n
  loose : ∀ h ∈ stack, ∀ p, h ∉ s.childrenOf p

theorem ownerOf_vacate {h : Handle} {n : Node r} (hn : s.get? h = some n) (k : Handle) :
    (s.vacate h).ownerOf k = if k = h then none else s.ownerOf k := by
  unfold ownerOf
  rw [get?_vacate hn k]
  split_ifs <;> rfl

theorem childrenOf_vacate {h : Handle} {n : Node r} (hn : s.get? h = some n) (k : Handle) :
    (s.vacate h).childrenOf k = if k = h then [] else s.childrenOf k := by
  unfold childrenOf
  rw [get?_vacate hn k]
  split_ifs <;> rfl

theorem mem_childrenOf_of_vacate {h k p : Handle} {n : Node r} (hn : s.get? h = some n)
    (hk : k ∈ (s.vacate h).childrenOf p) : p ≠ h ∧ k ∈ s.childrenOf p := by
  rw [childrenOf_vacate hn] at hk
  split_ifs at hk with hp
  · cases hk
  · exact ⟨hp, hk⟩

theorem Loose.not_mem_childrenOf {h : Handle} {stack : List Handle} (hl : s.Loose (h :: stack))
    (p : Handle) : h ∉ s.childrenOf p :=
  hl.loose h List.mem_cons_self p

/-- The node that goes does not come back to the stack. -/
theorem Loose.ne_head {h k : Handle} {n : Node r} {stack : List Handle} (hl : s.Loose (h :: stack))
    (hn : s.get? h = some n) (hk : k ∈ n.children.reverse ++ stack) : k ≠ h := by
  intro e
  rw [List.mem_append, List.mem_reverse, ← childrenOf_eq hn] at hk
  rcases hk with hk | hk
  · exact hl.not_mem_childrenOf h (e ▸ hk)
  · exact (List.nodup_cons.1 hl.stack_nodup).1 (e ▸ hk)

/-- **One step of the loop keeps its invariant.** -/
theorem Loose.step {h : Handle} {n : Node r} {stack : List Handle} (hl : s.Loose (h :: stack))
    (hn : s.get? h = some n) : (s.vacate h).Loose (n.children.reverse ++ stack) := by
  have hkids : ∀ k, k ∈ n.children ↔ k ∈ s.childrenOf h := by
    intro k
    rw [childrenOf_eq hn]
  have hrest : ∀ k ∈ stack, ∀ p, k ∉ s.childrenOf p := fun k hk =>
    hl.loose k (List.mem_cons_of_mem h hk)
  have hnd := List.nodup_cons.1 hl.stack_nodup
  refine ⟨cellsOK_vacate hl.cells hn, ?_, ?_, ?_, ?_, ?_⟩
  · intro p k hk
    obtain ⟨-, hk⟩ := mem_childrenOf_of_vacate hn hk
    have hkh : k ≠ h := fun e => hl.not_mem_childrenOf p (e ▸ hk)
    rw [ownerOf_vacate hn, if_neg hkh]
    exact hl.links p k hk
  · intro p
    rw [childrenOf_vacate hn]
    split_ifs
    · exact List.nodup_nil
    · exact hl.nodup p
  · rw [List.nodup_append]
    refine ⟨List.nodup_reverse.2 (by rw [← childrenOf_eq hn]; exact hl.nodup h), hnd.2, ?_⟩
    intro k hk k' hk' e
    rw [List.mem_reverse, hkids] at hk
    exact hrest k' hk' h (e ▸ hk)
  · intro k hk
    rw [get?_vacate hn, if_neg (hl.ne_head hn hk)]
    rw [List.mem_append, List.mem_reverse, hkids] at hk
    rcases hk with hk | hk
    · obtain ⟨m, hm, -⟩ := exists_of_ownerOf (hl.links h k hk)
      exact ⟨m, hm⟩
    · exact hl.live k (List.mem_cons_of_mem h hk)
  · intro k hk p hkp
    obtain ⟨hp, hkp⟩ := mem_childrenOf_of_vacate hn hkp
    rw [List.mem_append, List.mem_reverse, hkids] at hk
    -- a child of `h` in a slot of another node would have two owners
    rcases hk with hk | hk
    · have h1 := hl.links h k hk
      rw [hl.links p k hkp] at h1
      exact hp (Option.some.inj h1)
    · exact hrest k hk p hkp

/-- Taking away a node that is in no slot does not change what is below the other ones. -/
theorem below_vacate_iff {h : Handle} {n : Node r} (hn : s.get? h = some n)
    (hself : ∀ p, h ∉ s.childrenOf p) {x : Handle} (hx : x ≠ h) (y : Handle) :
    (s.vacate h).Below x y ↔ s.Below x y := by
  constructor
  · intro hb
    exact Relation.ReflTransGen.mono (fun p k hk => (mem_childrenOf_of_vacate hn hk).2) _ _ hb
  · intro hb
    -- a way down never meets `h`, because no slot holds it
    suffices hgoal : y ≠ h ∧ (s.vacate h).Below x y from hgoal.2
    induction hb with
    | refl => exact ⟨hx, Relation.ReflTransGen.refl⟩
    | @tail p k _ hk ih =>
      refine ⟨fun e => hself p (e ▸ hk), ih.2.tail ?_⟩
      rw [childrenOf_vacate hn, if_neg ih.1]
      exact hk

theorem below_iff {h : Handle} {n : Node r} (hn : s.get? h = some n) (y : Handle) :
    s.Below h y ↔ y = h ∨ ∃ x ∈ n.children, s.Below x y := by
  rw [← childrenOf_eq hn]
  constructor
  · intro hb
    rcases Relation.ReflTransGen.cases_head hb with he | ⟨x, hx, hxy⟩
    · exact Or.inl he.symm
    · exact Or.inr ⟨x, hx, hxy⟩
  · rintro (he | ⟨x, hx, hxy⟩)
    · rw [he]
      exact Relation.ReflTransGen.refl
    · exact Relation.ReflTransGen.head hx hxy

/-- The store `t` is `s` without the nodes in `gone`. -/
structure Vacated (s : Store r) (gone : List Handle) (t : Store r) : Prop where
  cells : t.CellsOK
  get? : ∀ k, t.get? k = if k ∈ gone then none else s.get? k
  size : t.size + gone.length = s.size
  free : t.free = gone.reverse.map Handle.index ++ s.free

/-- A node that goes before the others. -/
theorem Vacated.cons (hs : s.CellsOK) {h : Handle} {n : Node r} (hn : s.get? h = some n)
    {gone : List Handle} (hv : (s.vacate h).Vacated gone t) : s.Vacated (h :: gone) t where
  cells := hv.cells
  get? := by
    intro k
    rw [hv.get? k, get?_vacate hn]
    by_cases hk : k = h <;> simp [hk]
  size := by
    have h1 := hv.size
    have h2 := occupied_vacate_add_one hn
    have h3 := hs.size
    simp only [vacate, List.length_cons] at h1 h2 ⊢
    omega
  free := by
    rw [hv.free]
    simp [vacate]

theorem release_live {h : Handle} {n : Node r} (hn : s.get? h = some n) (stack : List Handle) :
    release (h :: stack) s =
      ((release (n.children.reverse ++ stack) (s.vacate h)).1 + 1,
        (release (n.children.reverse ++ stack) (s.vacate h)).2) := by
  rw [release]
  split
  · rename_i hn'
    rw [hn] at hn'
    cases hn'
  · rename_i m hn'
    rw [hn] at hn'
    cases hn'
    rfl

/-- **The loop takes away exactly the nodes below its stack**, and counts each once. -/
theorem release_spec {stack : List Handle} (hl : s.Loose stack) :
    ∃ gone, gone.Nodup ∧ (∀ y, y ∈ gone ↔ ∃ x ∈ stack, s.Below x y) ∧
      (release stack s).1 = gone.length ∧ s.Vacated gone (release stack s).2 := by
  induction stack, s using release.induct with
  | case1 s =>
    refine ⟨[], List.nodup_nil, by simp, by rw [release]; rfl, ?_⟩
    rw [release]
    exact ⟨hl.cells, by simp, rfl, rfl⟩
  | case2 h stack s hn _ =>
    obtain ⟨n, hn'⟩ := hl.live h List.mem_cons_self
    rw [hn] at hn'
    cases hn'
  | case3 h stack s n hn _ _ _ ih =>
    obtain ⟨gone, hnd, hmem, hcount, hvac⟩ := ih (hl.step hn)
    -- the nodes below the new stack are those below the old one, apart from `h`
    have hmem' : ∀ y, y ∈ gone ↔ ∃ x ∈ n.children.reverse ++ stack, s.Below x y := by
      intro y
      rw [hmem y]
      refine exists_congr fun x => and_congr_right fun hx => ?_
      exact below_vacate_iff hn hl.not_mem_childrenOf (hl.ne_head hn hx) y
    -- nothing holds `h`, so it is not among the nodes below its own children
    have hgone : h ∉ gone := by
      intro hh
      obtain ⟨x, hx, hxh⟩ := (hmem' h).1 hh
      rcases Relation.ReflTransGen.cases_tail hxh with he | ⟨p, -, hp⟩
      · exact hl.ne_head hn hx he.symm
      · exact hl.not_mem_childrenOf p hp
    rw [release_live hn]
    refine ⟨h :: gone, List.nodup_cons.2 ⟨hgone, hnd⟩, ?_, ?_, hvac.cons hl.cells hn⟩
    · intro y
      rw [List.mem_cons, hmem' y]
      simp only [List.mem_append, List.mem_reverse, List.mem_cons, or_and_right, exists_or,
        exists_eq_left]
      rw [below_iff hn y, or_assoc]
    · rw [hcount]
      rfl

/-! ### Releasing a tree -/

theorem childrenOf_isolate (s : Store r) (n : Node r) (h k : Handle) :
    (s.isolate n h).childrenOf k =
      if n.owner = some k then (s.childrenOf k).filter (· ≠ h) else s.childrenOf k := by
  unfold childrenOf
  rw [get?_isolate]
  cases s.get? k with
  | none => simp
  | some m =>
    by_cases hk : n.owner = some k
    · rw [if_pos hk]
      simp only [Option.map_some, if_pos hk, Option.getD_some]
      exact m.children_erase h
    · rw [if_neg hk]
      simp only [Option.map_some, if_neg hk]

theorem ownerOf_isolate (s : Store r) (n : Node r) (h k : Handle) :
    (s.isolate n h).ownerOf k = s.ownerOf k := by
  unfold ownerOf
  rw [get?_isolate]
  cases s.get? k with
  | none => rfl
  | some m =>
    simp only [Option.map_some, Option.bind_some]
    split_ifs <;> rfl

/-- A slot that is left holds what it held, apart from the node that was taken away. -/
theorem OK.mem_childrenOf_isolate (hs : s.OK) {root : Handle} {n : Node r}
    (hn : s.get? root = some n) (k p : Handle) :
    k ∈ (s.isolate n root).childrenOf p ↔ k ∈ s.childrenOf p ∧ k ≠ root := by
  rw [childrenOf_isolate]
  split_ifs with hp
  · simp
  · refine (and_iff_left_of_imp fun hk e => hp ?_).symm
    rw [← ownerOf_eq hn]
    exact (hs.links p root).1 (e ▸ hk)

theorem OK.loose_isolate (hs : s.OK) {root : Handle} {n : Node r} (hn : s.get? root = some n) :
    (s.isolate n root).Loose [root] where
  cells := hs.cells.of_same (sameCells_isolate s n root)
  links := by
    intro p h hh
    rw [ownerOf_isolate]
    exact (hs.links p h).1 ((hs.mem_childrenOf_isolate hn h p).1 hh).1
  nodup := by
    intro p
    rw [childrenOf_isolate]
    split_ifs
    · exact (hs.nodup p).filter _
    · exact hs.nodup p
  stack_nodup := List.nodup_singleton root
  live := by
    intro h hh
    rw [List.mem_singleton] at hh
    exact ⟨_, by rw [hh, get?_isolate, hn]; rfl⟩
  loose := by
    intro h hh p hp
    rw [List.mem_singleton] at hh
    exact ((hs.mem_childrenOf_isolate hn h p).1 hp).2 hh

/-- Taking the root away from its owner does not change what is below it. -/
theorem OK.below_isolate_iff (hs : s.OK) {root : Handle} {n : Node r} (hn : s.get? root = some n)
    (y : Handle) : (s.isolate n root).Below root y ↔ s.Below root y := by
  constructor
  · intro hb
    exact Relation.ReflTransGen.mono
      (fun p k hk => ((hs.mem_childrenOf_isolate hn k p).1 hk).1) _ _ hb
  · intro hb
    induction hb with
    | refl => exact Relation.ReflTransGen.refl
    | @tail p k _ hk ih =>
      by_cases hkr : k = root
      · rw [hkr]
        exact Relation.ReflTransGen.refl
      · exact ih.tail ((hs.mem_childrenOf_isolate hn k p).2 ⟨hk, hkr⟩)

/-- What is below a node has that node above it. -/
theorem OK.up_of_below (hs : s.OK) {root y : Handle} (hb : s.Below root y) : s.Up y root := by
  induction hb with
  | refl => exact Relation.ReflTransGen.refl
  | @tail p k _ hk ih => exact Relation.ReflTransGen.head ((hs.links p k).1 hk) ih

/-- The owner of a node is not below it. -/
theorem OK.not_below_owner (hs : s.OK) {root p : Handle} {n : Node r} (hn : s.get? root = some n)
    (hp : n.owner = some p) : ¬ s.Below root p := by
  intro hb
  exact (hs.rooted root n hn).not_up_owner p (by rw [ownerOf_eq hn, hp]) (hs.up_of_below hb)

/-- **What releasing the tree of `root` does.** The node of `root` was `n`. -/
structure Freed (s : Store r) (root : Handle) (n : Node r) (gone : List Handle) (t : Store r) :
    Prop where
  nodup : gone.Nodup
  /-- The nodes that go are those that can be reached from the root through slots. -/
  mem : ∀ h, h ∈ gone ↔ s.Below root h
  stale : ∀ h, t.get? h = none ↔ h ∈ gone ∨ s.get? h = none
  /-- Every other node is as it was, apart from the owner of the root. -/
  kept : ∀ h m, s.get? h = some m → h ∉ gone → n.owner ≠ some h → t.get? h = some m
  /-- One slot of the owner of the root held the root, and that one has lost it. -/
  owner : ∀ p, n.owner = some p → p ∉ gone ∧ ∃ m i slot rest,
    s.get? p = some m ∧ m.slots[i]? = some slot ∧ root ∈ slot.handles ∧
    (∀ j other, j ≠ i → m.slots[j]? = some other → root ∉ other.handles) ∧
    slot.Without root rest ∧ t.get? p = some { m with slots := m.slots.set i rest }
  size : t.size + gone.length = s.size

theorem OK.exists_vacated (hs : s.OK) {root : Handle} {n : Node r} (hn : s.get? root = some n) :
    ∃ gone, gone.Nodup ∧ (∀ h, h ∈ gone ↔ s.Below root h) ∧
      (release [root] (s.isolate n root)).1 = gone.length ∧
      (s.isolate n root).Vacated gone (release [root] (s.isolate n root)).2 := by
  obtain ⟨gone, hnd, hmem, hcount, hvac⟩ := release_spec (hs.loose_isolate hn)
  refine ⟨gone, hnd, fun h => ?_, hcount, hvac⟩
  rw [hmem h, ← hs.below_isolate_iff hn h]
  simp

/-- A node that is left is as it was, apart from the root in its slots. -/
theorem OK.get?_release (hs : s.OK) {root h : Handle} {n m : Node r} (hn : s.get? root = some n)
    (hm : (release [root] (s.isolate n root)).2.get? h = some m) :
    (release [root] (s.isolate n root)).2.get? h = (s.get? h).map fun k =>
      { k with slots := k.slots.map (·.erase root) } := by
  obtain ⟨gone, -, -, -, hv⟩ := hs.exists_vacated hn
  have hget := hv.get? h
  rw [hm] at hget ⊢
  split_ifs at hget
  rw [hget, get?_isolate]
  cases hk : s.get? h with
  | none => rfl
  | some k =>
    rw [Option.map_some, Option.map_some]
    split_ifs with howner
    · rfl
    · -- the root is in the slots of its owner only
      have hroot : root ∉ k.children := by
        rw [← childrenOf_eq hk, hs.links h root, ownerOf_eq hn]
        exact howner
      have hslots : k.slots.map (·.erase root) = k.slots := by
        refine (List.map_congr_left fun slot hslot => ?_).trans k.slots.map_id
        exact Slot.erase_of_not_mem fun hmem => hroot (List.mem_flatMap.2 ⟨slot, hslot, hmem⟩)
      rw [hslots]

theorem OK.exists_freed (hs : s.OK) {root : Handle} {n : Node r} (hn : s.get? root = some n) :
    ∃ gone, (release [root] (s.isolate n root)).1 = gone.length ∧
      s.Freed root n gone (release [root] (s.isolate n root)).2 := by
  obtain ⟨gone, hnd, hmem, hcount, hvac⟩ := hs.exists_vacated hn
  refine ⟨gone, hcount, hnd, hmem, ?_, ?_, ?_, ?_⟩
  · intro h
    rw [hvac.get? h, get?_isolate]
    split_ifs with hh <;> simp [hh]
  · intro h m hm hh ho
    rw [hvac.get? h, if_neg hh, get?_isolate, hm]
    simp only [Option.map_some, if_neg ho]
  · intro p hp
    -- the owner of the root is not below it, so it stays
    have hpg : p ∉ gone := by
      rw [hmem p]
      exact hs.not_below_owner hn hp
    have hroot := (hs.links p root).2 (by rw [ownerOf_eq hn, hp])
    obtain ⟨m, hm, hrm⟩ := exists_of_mem_childrenOf hroot
    obtain ⟨i, slot, hi, hslot, hother, hset⟩ := Node.exists_slot (hs.children_nodup hm) hrm
    refine ⟨hpg, m, i, slot, slot.erase root, hm, hi, hslot, hother, Slot.without_erase hslot, ?_⟩
    rw [hvac.get? p, if_neg hpg, get?_isolate, hm]
    simp only [Option.map_some, if_pos hp, hset]
  · rw [hvac.size, (sameCells_isolate s n root).size]

/-! ### What is left -/

section

variable {u : Store r} {gone : List Handle}

theorem Vacated.ownerOf (hv : u.Vacated gone t) (k : Handle) :
    t.ownerOf k = if k ∈ gone then none else u.ownerOf k := by
  unfold Store.ownerOf
  rw [hv.get? k]
  split_ifs <;> rfl

theorem Vacated.childrenOf (hv : u.Vacated gone t) (k : Handle) :
    t.childrenOf k = if k ∈ gone then [] else u.childrenOf k := by
  unfold Store.childrenOf
  rw [hv.get? k]
  split_ifs <;> rfl

/-- A node that is below another one has its owner below that one too. -/
theorem OK.below_owner (hs : s.OK) {root p k : Handle} (hb : s.Below root k) (hk : k ≠ root)
    (hp : s.ownerOf k = some p) : s.Below root p := by
  rcases Relation.ReflTransGen.cases_tail hb with he | ⟨q, hq, hqk⟩
  · exact absurd he hk
  · have ho := (hs.links q k).1 hqk
    rw [hp] at ho
    rw [Option.some.inj ho]
    exact hq

variable {root : Handle} {n : Node r}

/-- A node goes with its children, and with its owner unless it is the root, so the slots and the
owners that are left agree. -/
theorem OK.links_vacated (hs : s.OK) (hn : s.get? root = some n)
    (hmem : ∀ h, h ∈ gone ↔ s.Below root h) (hv : (s.isolate n root).Vacated gone t)
    (p h : Handle) : h ∈ t.childrenOf p ↔ t.ownerOf h = some p := by
  rw [hv.childrenOf p, hv.ownerOf h, ownerOf_isolate]
  by_cases hp : p ∈ gone
  · rw [if_pos hp]
    refine ⟨fun hh => absurd hh List.not_mem_nil, fun hh => ?_⟩
    split_ifs at hh with hg
    -- a child of a node that goes goes with it
    have hdown : s.Below root h := ((hmem p).1 hp).tail ((hs.links p h).2 hh)
    exact absurd ((hmem h).2 hdown) hg
  · rw [if_neg hp, hs.mem_childrenOf_isolate hn, hs.links p h]
    by_cases hg : h ∈ gone
    · rw [if_pos hg]
      refine ⟨fun hh => ?_, fun hh => by cases hh⟩
      -- the owner of a node that goes goes too
      have hup : s.Below root p := hs.below_owner ((hmem h).1 hg) hh.2 hh.1
      exact absurd ((hmem p).2 hup) hp
    · rw [if_neg hg]
      refine ⟨fun hh => hh.1, fun hh => ⟨hh, fun e => hg ?_⟩⟩
      rw [hmem h, e]
      exact Relation.ReflTransGen.refl

/-- The way up from a node that is left does not meet a node that goes. -/
theorem OK.rooted_vacated (hs : s.OK) (hmem : ∀ h, h ∈ gone ↔ s.Below root h)
    (hv : (s.isolate n root).Vacated gone t) {h : Handle} (hr : s.Rooted h) (hg : h ∉ gone) :
    t.Rooted h := by
  refine hr.transfer (P := fun k => k ∉ gone) ?_ hg
  intro k q hk hq
  have hkt := hv.get? k
  rw [if_neg hk, get?_isolate, hq, Option.map_some] at hkt
  refine ⟨_, hkt, ?_⟩
  by_cases hko : q.owner = none
  · refine Or.inl ?_
    split_ifs <;> exact hko
  · refine Or.inr ⟨by split_ifs <;> rfl, fun p hp hpg => hk ?_⟩
    have hkp : k ∈ s.childrenOf p := (hs.links p k).2 (by rw [ownerOf_eq hq, hp])
    exact (hmem k).2 (((hmem p).1 hpg).tail hkp)

end

/-- **What is left after a release is a forest again.** -/
theorem OK.freeTree (hs : s.OK) {root : Handle} {n : Node r} (hn : s.get? root = some n) :
    (release [root] (s.isolate n root)).2.OK := by
  obtain ⟨gone, -, hmem, -, hv⟩ := hs.exists_vacated hn
  set t := (release [root] (s.isolate n root)).2
  have hlive : ∀ h m, t.get? h = some m → h ∉ gone ∧ ∃ m', s.get? h = some m' ∧
      (if n.owner = some h then { m' with slots := m'.slots.map (·.erase root) } else m') = m := by
    intro h m hm
    rw [hv.get? h] at hm
    split_ifs at hm with hh
    rw [get?_isolate] at hm
    exact ⟨hh, Option.map_eq_some_iff.1 hm⟩
  refine ⟨hv.cells, ?_, hs.links_vacated hn hmem hv, ?_, ?_⟩
  · intro h m hm
    obtain ⟨-, m', hm', rfl⟩ := hlive h m hm
    split_ifs
    · exact Node.shapeOK_erase (hs.shape h m' hm') root
    · exact hs.shape h m' hm'
  · intro p
    rw [hv.childrenOf p]
    split_ifs
    · exact List.nodup_nil
    · exact (hs.loose_isolate hn).nodup p
  · intro h m hm
    obtain ⟨hg, m', hm', -⟩ := hlive h m hm
    exact hs.rooted_vacated hmem hv (hs.rooted h m' hm') hg

end Store

end NodeSchema

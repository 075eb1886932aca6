import NodeSchema.Proofs.Store.Lineage

/-!
# The forest of a store

The slots of the nodes and the owners of the nodes are two records of one forest. `OK` is the
invariant that ties them together, and this module proves that inserting, changing a node in place
and attaching a child keep it. Releasing a tree is in `Proofs.Store.Subtree`.

* `Forest`: what the invariant says about the live nodes.
* `Attached`: the store after a child came into a slot of a node.
* `OK.attach`: **a root that is not above a node may become its child**, in any slot.
-/

namespace NodeSchema.Store

variable {r : Registry} {s t : Store r}

/-- **The live nodes form a forest**, and both records of it agree. -/
structure Forest (s : Store r) : Prop where
  /-- A handle in a slot is that of a live node with the right owner. -/
  held : ∀ p n, s.get? p = some n → ∀ h ∈ n.children, ∃ m, s.get? h = some m ∧ m.owner = some p
  /-- The owner of a node is live and holds the node at one position of its slots. -/
  owned : ∀ h m p, s.get? h = some m → m.owner = some p →
    ∃ n, s.get? p = some n ∧ n.children.count h = 1
  /-- A node without an owner is in no slot. -/
  unowned : ∀ h m, s.get? h = some m → m.owner = none →
    ∀ p n, s.get? p = some n → h ∉ n.children
  /-- There is no way up without an end. -/
  rooted : ∀ h m, s.get? h = some m → s.Rooted h

/-- The invariant of all runs. -/
structure OK (s : Store r) : Prop where
  cells : s.CellsOK
  shape : ∀ h n, s.get? h = some n → n.ShapeOK
  links : ∀ p h, h ∈ s.childrenOf p ↔ s.ownerOf h = some p
  nodup : ∀ p, (s.childrenOf p).Nodup
  rooted : ∀ h n, s.get? h = some n → s.Rooted h

namespace OK

theorem forest (hs : s.OK) : s.Forest where
  held := by
    intro p n hp h hh
    have ho := (hs.links p h).1 (by rw [childrenOf_eq hp]; exact hh)
    exact exists_of_ownerOf ho
  owned := by
    intro h m p hm ho
    have hh := (hs.links p h).2 (by rw [ownerOf_eq hm]; exact ho)
    obtain ⟨n, hp, hn⟩ := exists_of_mem_childrenOf hh
    have hnd := hs.nodup p
    rw [childrenOf_eq hp] at hnd
    exact ⟨n, hp, List.count_eq_one_of_mem hnd hn⟩
  unowned := by
    intro h m hm ho p n hp hh
    have hp' := (hs.links p h).1 (by rw [childrenOf_eq hp]; exact hh)
    rw [ownerOf_eq hm, ho] at hp'
    cases hp'
  rooted := hs.rooted

theorem children_nodup (hs : s.OK) {p : Handle} {n : Node r} (hp : s.get? p = some n) :
    n.children.Nodup := by
  have hnd := hs.nodup p
  rwa [childrenOf_eq hp] at hnd

/-- A node without an owner is in no slot. -/
theorem not_mem_childrenOf (hs : s.OK) {h : Handle} (ho : s.ownerOf h = none) (p : Handle) :
    h ∉ s.childrenOf p := by
  intro hh
  rw [hs.links p h, ho] at hh
  cases hh

theorem empty : (empty : Store r).OK where
  cells := cellsOK_empty
  shape := by intro h n hn; rw [get?_empty] at hn; cases hn
  links := by simp [childrenOf, ownerOf, get?_empty]
  nodup := by simp [childrenOf, get?_empty]
  rooted := by intro h n hn; rw [get?_empty] at hn; cases hn

/-! ### Inserting -/

theorem insert (hs : s.OK) {n : Node r} (hn : n.ShapeOK) (hk : n.children = [])
    (ho : n.owner = none) : (s.insert n).2.OK := by
  have hget := get?_insert hs.cells n
  have hold := get?_insert_self hs.cells n
  refine ⟨cellsOK_insert hs.cells n, ?_, ?_, ?_, ?_⟩
  · intro h m hm
    rw [hget h] at hm
    split_ifs at hm
    · cases hm
      exact hn
    · exact hs.shape h m hm
  · intro p h
    rw [childrenOf_insert hs.cells hk, ownerOf_insert hs.cells ho]
    exact hs.links p h
  · intro p
    rw [childrenOf_insert hs.cells hk]
    exact hs.nodup p
  · intro h m hm
    rw [hget h] at hm
    split_ifs at hm with hc
    · cases hm
      exact Rooted.top h n (by rw [hget h, if_pos hc]) ho
    -- the way up from an old node stays among the old nodes
    · refine (hs.rooted h m hm).transfer (P := fun k => ∃ q, s.get? k = some q) ?_ ⟨m, hm⟩
      rintro k q - hq
      have hkc : k ≠ (s.insert n).1 := by
        intro e
        rw [e, hold] at hq
        cases hq
      refine ⟨q, by rw [hget k, if_neg hkc, hq], Or.inr ⟨rfl, fun p hp => ?_⟩⟩
      have hkp := (hs.links p k).2 (by rw [ownerOf_eq hq, hp])
      obtain ⟨a, ha, -⟩ := exists_of_mem_childrenOf hkp
      exact ⟨a, ha⟩

/-! ### Changes in place -/

/-- **A change that touches neither owners nor children** keeps the invariant. -/
theorem of_map (hs : s.OK) (hc : SameCells s t) {F : Handle → Node r → Node r}
    (hget : ∀ k, t.get? k = (s.get? k).map (F k))
    (hF : ∀ k n, s.get? k = some n →
      (F k n).owner = n.owner ∧ (F k n).children = n.children ∧ (F k n).ShapeOK) : t.OK := by
  have hown : ∀ k, t.ownerOf k = s.ownerOf k := by
    intro k
    unfold ownerOf
    rw [hget k]
    cases hk : s.get? k with
    | none => rfl
    | some n => exact (hF k n hk).1
  have hkids : ∀ k, t.childrenOf k = s.childrenOf k := by
    intro k
    unfold childrenOf
    rw [hget k]
    cases hk : s.get? k with
    | none => rfl
    | some n => exact (hF k n hk).2.1
  -- the live nodes are the images of those before
  have hlive : ∀ h m, t.get? h = some m → ∃ n, s.get? h = some n ∧ F h n = m := by
    intro h m hm
    rw [hget h] at hm
    exact Option.map_eq_some_iff.1 hm
  refine ⟨hs.cells.of_same hc, ?_, ?_, ?_, ?_⟩
  · intro h m hm
    obtain ⟨n, hn, rfl⟩ := hlive h m hm
    exact (hF h n hn).2.2
  · intro p h
    rw [hkids, hown]
    exact hs.links p h
  · intro p
    rw [hkids]
    exact hs.nodup p
  · intro h m hm
    obtain ⟨n, hn, -⟩ := hlive h m hm
    refine (hs.rooted h n hn).transfer (P := fun _ => True) ?_ trivial
    rintro k q - hq
    exact ⟨F k q, by rw [hget k, hq]; rfl, Or.inr ⟨(hF k q hq).1, fun _ _ => trivial⟩⟩

/-- A change of one node that touches neither its owner nor its children. -/
theorem update (hs : s.OK) {h : Handle} {n : Node r} {f : Node r → Node r} (hn : s.get? h = some n)
    (ho : (f n).owner = n.owner) (hk : (f n).children = n.children) (hf : (f n).ShapeOK) :
    (s.update h f).OK := by
  refine hs.of_map (sameCells_update s h f) (F := fun k m => if k = h then f m else m) ?_ ?_
  · intro k
    rw [get?_update]
    by_cases hkh : k = h <;> simp [hkh]
  · intro k m hm
    by_cases hkh : k = h
    · rw [hkh, hn] at hm
      cases hm
      rw [if_pos hkh]
      exact ⟨ho, hk, hf⟩
    · rw [if_neg hkh]
      exact ⟨rfl, rfl, hs.shape k m hm⟩

/-! ### Attaching -/

end OK

/-- The store `t` is `s` after `c` came into slot `i` of `h`. The node of `h` was `q`, the slot was
changed by `g`, and the child `prev` is no longer in it. -/
structure Attached (s t : Store r) (h c : Handle) (q : Node r) (prev : Option Handle) (i : ℕ)
    (g : Slot → Slot) : Prop where
  cells : SameCells s t
  /-- The child was a root that is not above the parent. -/
  child : ∃ n, s.get? c = some n ∧ n.owner = none
  not_up : ¬ s.Up h c
  parent : s.get? h = some q
  prev_mem : ∀ k, prev = some k → k ∈ q.children
  get? : ∀ k, t.get? k = (s.get? k).map fun n =>
    { n with
      owner := if prev = some k then none else if k = c then some h else n.owner
      slots := if k = h then n.slots.modify i g else n.slots }
  shape : (q.setSlot i g).ShapeOK
  mem_children : ∀ k, k ∈ (q.setSlot i g).children ↔ k = c ∨ k ∈ q.children ∧ prev ≠ some k
  nodup : (q.setSlot i g).children.Nodup

namespace Attached

variable {h c : Handle} {q : Node r} {prev : Option Handle} {i : ℕ} {g : Slot → Slot}

theorem child_owner (ha : Attached s t h c q prev i g) : s.ownerOf c = none := by
  obtain ⟨n, hn, ho⟩ := ha.child
  rw [ownerOf_eq hn, ho]

theorem prev_owner (ha : Attached s t h c q prev i g) (hs : s.OK) {k : Handle}
    (hk : prev = some k) : s.ownerOf k = some h := by
  have hmem := ha.prev_mem k hk
  rw [← childrenOf_eq ha.parent] at hmem
  exact (hs.links h k).1 hmem

theorem prev_ne_child (ha : Attached s t h c q prev i g) (hs : s.OK) : prev ≠ some c := by
  intro e
  have ho := ha.prev_owner hs e
  rw [ha.child_owner] at ho
  cases ho

theorem ownerOf (ha : Attached s t h c q prev i g) (k : Handle) :
    t.ownerOf k = if prev = some k then none else if k = c then some h else s.ownerOf k := by
  unfold Store.ownerOf
  rw [ha.get? k]
  cases hk : s.get? k with
  | none =>
    -- the child is live
    have hkc : k ≠ c := by
      intro e
      obtain ⟨n, hn, -⟩ := ha.child
      rw [e, hn] at hk
      cases hk
    simp [hkc]
  | some m => rfl

theorem childrenOf (ha : Attached s t h c q prev i g) (p : Handle) :
    t.childrenOf p = if p = h then (q.setSlot i g).children else s.childrenOf p := by
  unfold Store.childrenOf
  rw [ha.get? p]
  by_cases hp : p = h
  · rw [if_pos hp, hp, ha.parent]
    simp [Node.children, Node.setSlot]
  · rw [if_neg hp]
    cases s.get? p <;> simp [Node.children, hp]

/-- The slots and the owners agree in the new store. -/
theorem links (ha : Attached s t h c q prev i g) (hs : s.OK) (p k : Handle) :
    k ∈ t.childrenOf p ↔ t.ownerOf k = some p := by
  have hprev := ha.prev_ne_child hs
  rw [ha.childrenOf p, ha.ownerOf k]
  by_cases hp : p = h
  -- the parent has gained the child and lost `prev`
  · subst hp
    rw [if_pos rfl, ha.mem_children k, ← childrenOf_eq ha.parent, hs.links p k]
    by_cases hpk : prev = some k
    · have hkc : k ≠ c := fun e => hprev (e ▸ hpk)
      simp [hpk, hkc]
    · by_cases hkc : k = c <;> simp [hpk, hkc, hprev]
  -- no other node held the child, which was a root, or `prev`
  · have hph : h ≠ p := fun e => hp e.symm
    rw [if_neg hp, hs.links p k]
    by_cases hpk : prev = some k
    · simp [hpk, ha.prev_owner hs hpk, hph]
    · by_cases hkc : k = c
      · simp [hkc, hprev, ha.child_owner, hph]
      · simp [hpk, hkc]

/-- The way up from the parent does not meet the child, so it still ends. -/
theorem rooted_parent (ha : Attached s t h c q prev i g) (hs : s.OK) : t.Rooted h := by
  refine (hs.rooted h q ha.parent).transfer (P := fun k => ¬ s.Up k c) ?_ ha.not_up
  intro k m hk hm
  have hkc : k ≠ c := fun e => hk (e ▸ Relation.ReflTransGen.refl)
  refine ⟨_, by rw [ha.get? k, hm]; rfl, ?_⟩
  simp only [if_neg hkc]
  by_cases hpk : prev = some k
  · exact Or.inl (if_pos hpk)
  · refine Or.inr ⟨if_neg hpk, fun p hp hpc => hk ?_⟩
    exact Relation.ReflTransGen.head (by rw [ownerOf_eq hm, hp]) hpc

/-- **A way up still ends**: at the child that was replaced, at its old end, or, if that is the new
child, further up from the parent. -/
theorem rooted (ha : Attached s t h c q prev i g) (hs : s.OK) {k : Handle} (hr : s.Rooted k) :
    t.Rooted k := by
  have hprev := ha.prev_ne_child hs
  induction hr with
  | top k n hn ho =>
    have hk := ha.get? k
    rw [hn] at hk
    by_cases hkc : k = c
    · refine Rooted.step k _ h hk ?_ (ha.rooted_parent hs)
      simp [hkc, hprev]
    · refine Rooted.top k _ hk ?_
      simp [hkc, ho]
  | step k n p hn ho _ ih =>
    have hk := ha.get? k
    rw [hn] at hk
    -- the child was a root, so the way up does not pass it
    have hkc : k ≠ c := by
      intro e
      have hc := ha.child_owner
      rw [← e, ownerOf_eq hn, ho] at hc
      cases hc
    by_cases hpk : prev = some k
    · refine Rooted.top k _ hk ?_
      simp [hpk]
    · refine Rooted.step k _ p hk ?_ ih
      simp [hkc, hpk, ho]

end Attached

namespace OK

/-- **Attaching keeps the invariant.** -/
theorem attach (hs : s.OK) {h c : Handle} {q : Node r} {prev : Option Handle} {i : ℕ}
    {g : Slot → Slot} (ha : Attached s t h c q prev i g) : t.OK := by
  have hlive : ∀ k m, t.get? k = some m → ∃ m', s.get? k = some m' := by
    intro k m hm
    rw [ha.get? k] at hm
    obtain ⟨m', hm', -⟩ := Option.map_eq_some_iff.1 hm
    exact ⟨m', hm'⟩
  refine ⟨hs.cells.of_same ha.cells, ?_, ha.links hs, ?_, ?_⟩
  · intro k m hm
    rw [ha.get? k] at hm
    obtain ⟨m', hm', rfl⟩ := Option.map_eq_some_iff.1 hm
    by_cases hk : k = h
    · subst hk
      rw [ha.parent] at hm'
      cases hm'
      exact ha.shape.of_eq rfl (by simp)
    · exact (hs.shape k m' hm').of_eq rfl (by simp [hk])
  · intro p
    rw [ha.childrenOf p]
    split_ifs
    · exact ha.nodup
    · exact hs.nodup p
  · intro k m hm
    obtain ⟨m', hm'⟩ := hlive k m hm
    exact ha.rooted hs (hs.rooted k m' hm')

/-- **A place has a slot**, of the kind that its field prescribes. -/
theorem slot_of_place (hs : s.OK) {h : Handle} {field : String} {p : Place r}
    (hp : s.place h field = .ok p) :
    ∃ slot, p.slot? = some slot ∧ slot.ownership = p.field.ownership := by
  obtain ⟨hn, f, hshape, hf⟩ := place_ok hp
  exact (hs.shape h p.node hn).exists_slot hshape (Family.getElem?_of_nodeField? hf)

/-- The slot of a place where a child may be attached holds what was asked for. -/
theorem slot_of_attachPlace (hs : s.OK) {wanted : Ownership} {h c : Handle} {field : String}
    {p : Place r} (hp : s.attachPlace wanted h field c = .ok p) :
    ∃ slot, p.slot? = some slot ∧ slot.ownership = wanted := by
  obtain ⟨hplace, hw, -⟩ := attachPlace_ok hp
  obtain ⟨slot, hslot, ho⟩ := hs.slot_of_place hplace
  exact ⟨slot, hslot, ho.trans hw⟩

theorem child_of_attachPlace (hs : s.OK) {h c : Handle} {field : String} {p : Place r}
    (hp : s.attachPlace .child h field c = .ok p) :
    ∃ previous, p.slot? = some (.child previous) := by
  obtain ⟨slot, hslot, ho⟩ := hs.slot_of_attachPlace hp
  cases slot with
  | child previous => exact ⟨previous, hslot⟩
  | value text => cases ho
  | children nodes => cases ho

theorem children_of_attachPlace (hs : s.OK) {h c : Handle} {field : String} {p : Place r}
    (hp : s.attachPlace .sequence h field c = .ok p) :
    ∃ nodes, p.slot? = some (.children nodes) := by
  obtain ⟨slot, hslot, ho⟩ := hs.slot_of_attachPlace hp
  cases slot with
  | children nodes => exact ⟨nodes, hslot⟩
  | value text => cases ho
  | child previous => cases ho

theorem setValue (hs : s.OK) {h : Handle} {field text : String} {p : Place r} {old : Option String}
    (hp : s.place h field = .ok p) (hslot : p.slot? = some (.value old)) :
    (s.update h (·.setSlot p.index fun _ => .value (some text))).OK := by
  obtain ⟨hn, -⟩ := place_ok hp
  obtain ⟨before, after, hold, hnew⟩ := Node.children_split hslot
  refine hs.update hn rfl ?_ (Node.shapeOK_setSlot (hs.shape h _ hn) ?_)
  · rw [hnew, hold]
    rfl
  · intro slot' hslot'
    rw [← Place.slot?, hslot] at hslot'
    cases hslot'
    rfl

/-- Attaching is allowed only below nodes that the child does not own. -/
theorem not_up_of_attachPlace (hs : s.OK) {wanted : Ownership} {h c : Handle} {field : String}
    {p : Place r} (hp : s.attachPlace wanted h field c = .ok p) : ¬ s.Up h c := by
  obtain ⟨hq, -, n, -, -, -, -, hline, -⟩ := attachPlace_ok hp
  intro hup
  exact hline ((mem_lineage_iff (hs.rooted h _ (place_ok hq).1) c).2 hup)

/-- **A child that may be attached comes into a slot.** The slot keeps what it held, apart from
`prev`. -/
theorem attach_slot (hs : s.OK) {wanted : Ownership} {h c : Handle} {field : String} {p : Place r}
    (hp : s.attachPlace wanted h field c = .ok p) (hcells : SameCells s t) {slot : Slot}
    (hslot : p.slot? = some slot) {prev : Option Handle} {g : Slot → Slot}
    (hown : (g slot).ownership = slot.ownership) (hprev : ∀ k, prev = some k → k ∈ slot.handles)
    (hmem : ∀ k, k ∈ (g slot).handles ↔ k = c ∨ k ∈ slot.handles ∧ prev ≠ some k)
    (hnd : slot.handles.Nodup → c ∉ slot.handles → (g slot).handles.Nodup)
    (hget : ∀ k, t.get? k = (s.get? k).map fun n =>
      { n with
        owner := if prev = some k then none else if k = c then some h else n.owner
        slots := if k = h then n.slots.modify p.index g else n.slots }) : t.OK := by
  obtain ⟨hplace, -, n, -, -, hcn, hco, -⟩ := attachPlace_ok hp
  obtain ⟨hq, -⟩ := place_ok hplace
  obtain ⟨before, after, hold, hnew⟩ := Node.children_split hslot
  have hkids := hs.children_nodup hq
  have hc : c ∉ p.node.children := by
    rw [← childrenOf_eq hq]
    exact hs.not_mem_childrenOf (by rw [ownerOf_eq hcn, hco]) h
  have hshape : (p.node.setSlot p.index g).ShapeOK := by
    refine Node.shapeOK_setSlot (hs.shape h _ hq) ?_
    intro slot' hslot'
    rw [← Place.slot?, hslot] at hslot'
    cases hslot'
    exact hown
  rw [hold] at hkids hc
  simp only [List.nodup_append, List.mem_append, not_or] at hkids hc
  obtain ⟨⟨hbefore, hhandles, hbs⟩, hafter, hbsa⟩ := hkids
  have hold' : ∀ k, k ∈ p.node.children ↔ (k ∈ before ∨ k ∈ slot.handles) ∨ k ∈ after := by
    intro k
    rw [hold, List.mem_append, List.mem_append]
  -- the other slots hold neither `prev`, which is in this one, nor the child
  have hout : ∀ k, k ∈ before ∨ k ∈ after → prev ≠ some k := by
    rintro k (hk | hk) e
    · exact hbs k hk k (hprev k e) rfl
    · exact hbsa k (Or.inr (hprev k e)) k hk rfl
  have hchildren : ∀ k, k ∈ (p.node.setSlot p.index g).children ↔
      k = c ∨ k ∈ p.node.children ∧ prev ≠ some k := by
    intro k
    have hk := hout k
    rw [hnew, hold', List.mem_append, List.mem_append, hmem k]
    tauto
  have hnodup : (p.node.setSlot p.index g).children.Nodup := by
    have hne : ∀ k, k ∈ (g slot).handles → k ∉ before ∧ k ∉ after := by
      intro k hk
      rcases (hmem k).1 hk with rfl | ⟨hk, -⟩
      · exact ⟨hc.1.1, hc.2⟩
      · exact ⟨fun hb => hbs k hb k hk rfl, fun ha => hbsa k (Or.inr hk) k ha rfl⟩
    rw [hnew]
    simp only [List.nodup_append, List.mem_append]
    refine ⟨⟨hbefore, hnd hhandles hc.1.2, ?_⟩, hafter, ?_⟩
    · rintro a ha b hb rfl
      exact (hne a hb).1 ha
    · rintro a (ha | ha) b hb rfl
      · exact hbsa a (Or.inl ha) a hb rfl
      · exact (hne a ha).2 hb
  have hprevmem : ∀ k, prev = some k → k ∈ p.node.children := fun k hk =>
    (hold' k).2 (Or.inl (Or.inr (hprev k hk)))
  exact hs.attach ⟨hcells, ⟨n, hcn, hco⟩, hs.not_up_of_attachPlace hp, hq, hprevmem, hget, hshape,
    hchildren, hnodup⟩

theorem linkChild (hs : s.OK) {h c : Handle} {field : String} {p : Place r}
    {previous : Option Handle} (hp : s.attachPlace .child h field c = .ok p)
    (hslot : p.slot? = some (.child previous)) : (s.linkChild p previous h c).OK := by
  refine hs.attach_slot hp (sameCells_linkChild s p previous h c) hslot
    (g := fun _ => .child (some c)) rfl ?_ ?_ ?_ (get?_linkChild s p previous h c)
  · rintro k rfl
    simp [Slot.handles]
  · intro k
    cases previous <;> simp [Slot.handles, eq_comm]
  · intro _ _
    simp [Slot.handles]

theorem linkLast (hs : s.OK) {h c : Handle} {field : String} {p : Place r}
    {nodes : Sequence Handle} (hp : s.attachPlace .sequence h field c = .ok p)
    (hslot : p.slot? = some (.children nodes)) : (s.linkLast p nodes h c).OK := by
  have hget : ∀ k, (s.linkLast p nodes h c).get? k = (s.get? k).map fun n =>
      { n with
        owner := if none = some k then none else if k = c then some h else n.owner
        slots :=
          if k = h then n.slots.modify p.index fun _ => .children (nodes.push c)
          else n.slots } := by
    intro k
    simpa using get?_linkLast s p nodes h c k
  refine hs.attach_slot hp (sameCells_linkLast s p nodes h c) hslot rfl ?_ ?_ ?_ hget
  · rintro k ⟨⟩
  · intro k
    simp [Slot.handles, or_comm]
  · intro hxs hc
    simp only [Slot.handles, Sequence.toList_push] at hxs hc ⊢
    rw [List.nodup_append]
    exact ⟨hxs, List.nodup_singleton c, fun a ha b hb e => hc (List.mem_singleton.1 hb ▸ e ▸ ha)⟩

theorem mark (hs : s.OK) {h : Handle} {n : Node r} (hn : s.get? h = some n) :
    (s.update h fun n => { n with marked := true }).OK :=
  hs.update hn rfl rfl (hs.shape h n hn)

theorem unmarked (hs : s.OK) : s.unmarked.OK :=
  hs.of_map (sameCells_unmarked s) (get?_unmarked s) fun k n hk => ⟨rfl, rfl, hs.shape k n hk⟩

end OK

end NodeSchema.Store

import NodeSchema.Proofs.Store.Runs

/-!
# Where nodes and children come from

What one action can make of a live node. Its header never changes, and a slot holds afterwards only
what it held before, or a child that passed the checks of its field. A node that was not there before
is a new one.

* `OK.origin`: this, for every action.
* `OK.toHeader_run`: the header of a node stays for as long as the node is live.
-/

namespace NodeSchema

variable {r : Registry}

/-! ### Slots that hold a node -/

/-- Slot `i` of a node holds `c`. -/
def Node.InSlot (n : Node r) (i : ℕ) (c : Handle) : Prop :=
  ∃ slot, n.slots[i]? = some slot ∧ c ∈ slot.handles

theorem Node.InSlot.mem_children {n : Node r} {i : ℕ} {c : Handle} (hc : n.InSlot i c) :
    c ∈ n.children := by
  obtain ⟨slot, hslot, hmem⟩ := hc
  exact List.mem_flatMap.2 ⟨slot, List.mem_of_getElem? hslot, hmem⟩

theorem Node.not_inSlot_fresh {f : Family} {v : Record} {kind line i : ℕ} {c : Handle} :
    ¬ (Node.fresh f v kind line : Node r).InSlot i c := by
  intro hc
  have hmem := hc.mem_children
  rw [Node.children_fresh] at hmem
  cases hmem

theorem Node.inSlot_setSlot {n : Node r} {i j : ℕ} {g : Slot → Slot} {c : Handle}
    (hc : (n.setSlot i g).InSlot j c) :
    n.InSlot j c ∨ j = i ∧ ∃ slot, n.slots[i]? = some slot ∧ c ∈ (g slot).handles := by
  obtain ⟨slot, hslot, hmem⟩ := hc
  rw [Node.slots_setSlot, List.getElem?_modify] at hslot
  by_cases hij : i = j
  · subst hij
    obtain ⟨old, hold, rfl⟩ := Option.map_eq_some_iff.1 hslot
    exact Or.inr ⟨rfl, old, hold, by simpa using hmem⟩
  · exact Or.inl ⟨slot, by simpa [hij] using hslot, hmem⟩

theorem Node.inSlot_erase {n : Node r} {h c : Handle} {i : ℕ}
    (hc : ({ n with slots := n.slots.map (·.erase h) } : Node r).InSlot i c) : n.InSlot i c := by
  obtain ⟨slot, hslot, hmem⟩ := hc
  rw [List.getElem?_map] at hslot
  obtain ⟨old, hold, rfl⟩ := Option.map_eq_some_iff.1 hslot
  rw [Slot.handles_erase] at hmem
  exact ⟨old, hold, List.mem_of_mem_filter hmem⟩

namespace Store

variable {s t : Store r}

/-! ### What is kept of a node -/

/-- The live node `c` is of a variant that field `i` of the node `n` holds. -/
def Holds (s : Store r) (n : Node r) (i : ℕ) (c : Handle) : Prop :=
  ∃ f v field, n.shape = .ok (f, v) ∧ (f.nodeFields v)[i]? = some field ∧
    ∃ m g w, s.get? c = some m ∧ m.shape = .ok (g, w) ∧ r.holds field.type.typeName g w

/-- What an action leaves of a node: `n` has become `m`. -/
structure Kept (s : Store r) (n m : Node r) : Prop where
  header : m.toHeader = n.toHeader
  slots : ∀ i c, m.InSlot i c → n.InSlot i c ∨ s.Holds n i c

/-- A node that has gained no child. -/
theorem Kept.of_slots {n m : Node r} (hh : m.toHeader = n.toHeader)
    (hs : ∀ i c, m.InSlot i c → n.InSlot i c) : s.Kept n m :=
  ⟨hh, fun i c hc => Or.inl (hs i c hc)⟩

theorem Kept.refl (s : Store r) (n : Node r) : s.Kept n n :=
  .of_slots rfl fun _ _ hc => hc

theorem Kept.shape {n m : Node r} (h : s.Kept n m) : m.shape = n.shape := by
  rw [Node.shape, Node.shape, h.header]

/-- The place where a child is attached holds nodes like this one. -/
theorem holds_of_attachPlace {wanted : Ownership} {h c : Handle} {field : String} {p : Place r}
    (hp : s.attachPlace wanted h field c = .ok p) : s.Holds p.node p.index c := by
  obtain ⟨hplace, -, n, g, w, hn, -, -, hshape, hholds⟩ := attachPlace_ok hp
  obtain ⟨-, f, hf, hfield⟩ := place_ok hplace
  exact ⟨f, p.variant, p.field, hf, Family.getElem?_of_nodeField? hfield, n, g, w, hn, hshape,
    hholds⟩

/-- Where the node `m` of the handle `k` comes from, after an action. -/
inductive Origin (s : Store r) (k : Handle) (m : Node r) : Prop
  /-- It is one of the nodes before. -/
  | kept (n : Node r) : s.get? k = some n → s.Kept n m → Origin s k m
  /-- It is a new one. -/
  | made (f : Family) (v : Record) (kind line : ℕ) :
      s.get? k = none → m = .fresh f v kind line → Origin s k m

theorem Origin.of_get? {k : Handle} {m : Node r} (hm : s.get? k = some m) : s.Origin k m :=
  .kept m hm (Kept.refl s m)

/-- An action that changes one node in place. -/
theorem Origin.of_update {h k : Handle} {q m : Node r} {f : Node r → Node r}
    (hq : s.get? h = some q) (hf : s.Kept q (f q)) (hm : (s.update h f).get? k = some m) :
    s.Origin k m := by
  rw [get?_update] at hm
  split_ifs at hm with hk
  · rw [hk, hq] at hm
    cases hm
    exact .kept q (hk ▸ hq) hf
  · exact .of_get? hm

/-- An action that attaches `c` below the node `q` of `h`: slot `i` of `q` is changed by `g`, and
owners may change anywhere. -/
theorem Origin.of_attach {h c k : Handle} {q m : Node r} {i : ℕ} {g : Slot → Slot}
    {owner : Node r → Option Handle} (hq : s.get? h = some q) (hholds : s.Holds q i c)
    (hg : ∀ slot k, q.slots[i]? = some slot → k ∈ (g slot).handles → k = c ∨ q.InSlot i k)
    (hm : (s.get? k).map (fun n => { n with
      owner := owner n
      slots := if k = h then n.slots.modify i g else n.slots }) = some m) : s.Origin k m := by
  obtain ⟨n, hn, rfl⟩ := Option.map_eq_some_iff.1 hm
  by_cases hk : k = h
  · rw [hk, hq] at hn
    cases hn
    refine .kept q (hk ▸ hq) ⟨rfl, fun j x hx => ?_⟩
    simp only [if_pos hk] at hx
    rcases Node.inSlot_setSlot (n := q) hx with hx | ⟨rfl, slot, hslot, hmem⟩
    · exact Or.inl hx
    · rcases hg slot x hslot hmem with rfl | hx
      · exact Or.inr hholds
      · exact Or.inl hx
  · refine .kept n hn (.of_slots rfl fun j x hx => ?_)
    simpa [Node.InSlot, hk] using hx

/-- **Where nodes come from.** -/
theorem OK.origin (hs : s.OK) {a : Action} {x : Except Error Answer} (he : s.Effect a x t)
    {k : Handle} {m : Node r} (hm : t.get? k = some m) : s.Origin k m := by
  cases he with
  | refused => exact .of_get? hm
  | allocate name line f v kind =>
    rw [get?_insert hs.cells] at hm
    split_ifs at hm with hk
    · cases hm
      refine .made f v kind line ?_ rfl
      rw [hk]
      exact get?_insert_self hs.cells _
    · exact .of_get? hm
  | setValue h field text p old hp =>
    refine .of_update (place_ok hp).1 (.of_slots rfl fun i c hc => ?_) hm
    rcases Node.inSlot_setSlot hc with hc | ⟨-, slot, -, hmem⟩
    · exact hc
    · cases hmem
  | setChild h field c p previous hp =>
    rw [get?_linkChild] at hm
    refine .of_attach (place_ok (attachPlace_ok hp).1).1 (holds_of_attachPlace hp) ?_ hm
    intro slot x _ hx
    exact Or.inl (by simpa [Slot.handles] using hx)
  | pushChild h field c p nodes hp hslot =>
    rw [get?_linkLast] at hm
    refine .of_attach (place_ok (attachPlace_ok hp).1).1 (holds_of_attachPlace hp) ?_ hm
    intro slot x _ hx
    simp only [Slot.handles, Sequence.toList_push, List.mem_append, List.mem_singleton] at hx
    rcases hx with hx | hx
    · exact Or.inr ⟨_, hslot, hx⟩
    · exact Or.inl hx
  | mark h n hn =>
    exact .of_update (node_eq_ok_iff.1 hn) (.of_slots rfl fun _ _ hc => hc) hm
  | clearMarks =>
    rw [get?_unmarked] at hm
    obtain ⟨n, hn, rfl⟩ := Option.map_eq_some_iff.1 hm
    exact .kept n hn (.of_slots rfl fun _ _ hc => hc)
  | freeTree root n hn =>
    obtain ⟨gone, -, -, -, hv⟩ := hs.exists_vacated hn
    rw [hv.get? k] at hm
    split_ifs at hm
    rw [get?_isolate] at hm
    obtain ⟨m', hm', rfl⟩ := Option.map_eq_some_iff.1 hm
    refine .kept m' hm' ?_
    split_ifs
    · exact .of_slots rfl fun _ _ hc => Node.inSlot_erase hc
    · exact Kept.refl s m'

/-! ### Headers -/

/-- The node of `h` is live before and after each of these actions. -/
def Stays (s : Store r) (h : Handle) : List Action → Prop
  | [] => s.contains h
  | a :: rest => s.contains h ∧ (s.perform a).2.Stays h rest

instance decidableStays (s : Store r) (h : Handle) :
    (actions : List Action) → Decidable (s.Stays h actions)
  | [] => inferInstanceAs (Decidable (s.contains h = true))
  | a :: rest =>
    have := decidableStays (s.perform a).2 h rest
    inferInstanceAs (Decidable (s.contains h = true ∧ (s.perform a).2.Stays h rest))

theorem Stays.contains {h : Handle} {actions : List Action} (hl : s.Stays h actions) :
    s.contains h := by
  cases actions with
  | nil => exact hl
  | cons a rest => exact hl.1

theorem OK.toHeader_perform (hs : s.OK) {a : Action} {h : Handle} {n m : Node r}
    (hn : s.get? h = some n) (hm : (s.perform a).2.get? h = some m) :
    m.toHeader = n.toHeader := by
  cases hs.origin (s.perform_effect a) hm with
  | kept n' hn' hk =>
    rw [hn] at hn'
    cases hn'
    exact hk.header
  | made f v kind line hnone =>
    rw [hn] at hnone
    cases hnone

/-- **The header of a node stays** for as long as the node is live. -/
theorem OK.toHeader_run (hs : s.OK) {h : Handle} {n : Node r} (hn : s.get? h = some n)
    {actions : List Action} (hl : s.Stays h actions) :
    ∃ m, (s.run actions).2.get? h = some m ∧ m.toHeader = n.toHeader := by
  induction actions generalizing s n with
  | nil => exact ⟨n, hn, rfl⟩
  | cons a rest ih =>
    obtain ⟨m, hm⟩ := Option.isSome_iff_exists.1 hl.2.contains
    obtain ⟨m', hm', hh⟩ := ih (hs.perform a) hm hl.2
    exact ⟨m', hm', hh.trans (hs.toHeader_perform hn hm)⟩

end Store

end NodeSchema

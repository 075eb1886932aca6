import NodeSchema.Proofs.Store.Refusal
import NodeSchema.Registry.Build

/-!
# What is read after a write

Fields are looked for by their names, and a write changes the slot that was found. Two names never
lead to one slot, also where a field of the variant hides one of the base record: the field that was
found has the name that was looked for. So a write is read back under its own name, and no other name
and no other node tells of it.

* `Wrote`: one slot of one node has changed, and owners may have changed anywhere.
* `index_ne_of_place`: **two names of fields have two slots.**
* `Frame`: what a write leaves alone. `Wrote.frame`: a change of one slot leaves it alone.
* `reads_after_writes`: after every run, what each write gives, what is read after it, and that
  nothing else has changed.
-/

namespace NodeSchema

variable {r : Registry}

/-- The field that is found has the name that was looked for. -/
theorem Family.name_of_nodeField? {f : Family} {v : Record} {name : String} {x : Field} {i : ℕ}
    (h : f.nodeField? v name = some (x, i)) : x.name = name := by
  unfold Family.nodeField? at h
  rw [Option.or_eq_some_iff] at h
  rcases h with h | ⟨-, h⟩
  · simpa using List.find?_some h
  · simpa using List.find?_some h

namespace Store

variable {s t : Store r}

/-! ### Reading a place -/

theorem value_of_place {h : Handle} {name : String} {p : Place r} (hp : s.place h name = .ok p) :
    s.value h name =
      match p.slot? with
      | some (.value text) => .ok text
      | _ => .error (p.mismatch .value) := by
  rw [value, hp]
  rfl

theorem child_of_place {h : Handle} {name : String} {p : Place r} (hp : s.place h name = .ok p) :
    s.child h name =
      match p.slot? with
      | some (.child node) => .ok node
      | _ => .error (p.mismatch .child) := by
  rw [child, hp]
  rfl

theorem children_of_place {h : Handle} {name : String} {p : Place r} (hp : s.place h name = .ok p) :
    s.children h name =
      match p.slot? with
      | some (.children nodes) => .ok nodes
      | _ => .error (p.mismatch .sequence) := by
  rw [children, hp]
  rfl

/-- **Two names of fields have two slots.** The slots may be those of two fields of one name, one of
the variant and one of the base record, but only the first of these is found. -/
theorem index_ne_of_place {h : Handle} {name other : String} {p q : Place r}
    (hp : s.place h name = .ok p) (hq : s.place h other = .ok q) (hne : other ≠ name) :
    q.index ≠ p.index := by
  intro hi
  obtain ⟨hn, f, hf, hfield⟩ := place_ok hp
  obtain ⟨hn', f', hf', hfield'⟩ := place_ok hq
  have hnode : q.node = p.node := Option.some.inj (hn'.symm.trans hn)
  rw [hnode, hf] at hf'
  obtain ⟨rfl, hv⟩ := Prod.mk.inj (Except.ok.inj hf')
  -- both names lead to the field at the one position
  have h1 := Family.getElem?_of_nodeField? hfield
  have h2 := Family.getElem?_of_nodeField? hfield'
  rw [hi, ← hv, h1] at h2
  rw [← Family.name_of_nodeField? hfield, ← Family.name_of_nodeField? hfield',
    Option.some.inj h2] at hne
  exact hne rfl

/-- **Fields keep their places** when a node changes, as long as its header stays. -/
theorem place_of_map {h : Handle} {F : Node r → Node r} (hget : t.get? h = (s.get? h).map F)
    (hF : ∀ n, (F n).toHeader = n.toHeader) (name : String) :
    t.place h name = (s.place h name).map fun p => { p with node := F p.node } := by
  have hnode : t.node h = (s.node h).map F := by
    rw [node, node, hget]
    cases s.get? h <;> rfl
  rw [place, place, hnode]
  cases s.node h with
  | error e => rfl
  | ok n =>
    -- the shape of a node depends on its header only
    have hshape : (F n).shape = n.shape := by rw [Node.shape, Node.shape, hF n]
    change ((F n).shape >>= _) = Except.map _ (n.shape >>= _)
    rw [hshape]
    cases n.shape with
    | error e => rfl
    | ok shape =>
      obtain ⟨f, v⟩ := shape
      simp only [ok_bind]
      cases f.nodeField? v name <;> rfl

/-! ### Changing one slot -/

/-- The store `t` is `s` after slot `i` of `h` was changed by `g`, and all owners by `owner`. -/
def Wrote (s t : Store r) (h : Handle) (i : ℕ) (g : Slot → Slot)
    (owner : Handle → Node r → Option Handle) : Prop :=
  ∀ k, t.get? k = (s.get? k).map fun n =>
    { n with
      owner := owner k n
      slots := if k = h then n.slots.modify i g else n.slots }

theorem wrote_setSlot (s : Store r) (h : Handle) (i : ℕ) (g : Slot → Slot) :
    s.Wrote (s.update h (·.setSlot i g)) h i g fun _ n => n.owner := by
  intro k
  rw [get?_update]
  by_cases hk : k = h
  · simp only [if_pos hk]
    rfl
  · simp only [if_neg hk]
    exact Option.map_id'.symm

theorem wrote_linkChild (s : Store r) (p : Place r) (previous : Option Handle) (h c : Handle) :
    s.Wrote (s.linkChild p previous h c) h p.index (fun _ => .child (some c)) fun k n =>
      if previous = some k then none else if k = c then some h else n.owner :=
  fun k => get?_linkChild s p previous h c k

theorem wrote_linkLast (s : Store r) (p : Place r) (nodes : Sequence Handle) (h c : Handle) :
    s.Wrote (s.linkLast p nodes h c) h p.index (fun _ => .children (nodes.push c)) fun k n =>
      if k = c then some h else n.owner :=
  fun k => get?_linkLast s p nodes h c k

namespace Wrote

variable {h : Handle} {i : ℕ} {g : Slot → Slot} {owner : Handle → Node r → Option Handle}

theorem node (hw : s.Wrote t h i g owner) (k : Handle) :
    t.node k = (s.node k).map fun n =>
      { n with
        owner := owner k n
        slots := if k = h then n.slots.modify i g else n.slots } := by
  rw [Store.node, Store.node, hw k]
  cases s.get? k <;> rfl

theorem contains (hw : s.Wrote t h i g owner) (k : Handle) : t.contains k = s.contains k := by
  rw [Store.contains, Store.contains, hw k, Option.isSome_map]

theorem place (hw : s.Wrote t h i g owner) (k : Handle) (name : String) :
    t.place k name = (s.place k name).map fun q =>
      { q with node :=
        { q.node with
          owner := owner k q.node
          slots := if k = h then q.node.slots.modify i g else q.node.slots } } :=
  place_of_map (hw k) (fun _ => rfl) name

theorem owner_of_get? (hw : s.Wrote t h i g owner) {k : Handle} {n : Node r}
    (hn : s.get? k = some n) : t.owner k = .ok (owner k n) := by
  rw [Store.owner, hw.node k, node_eq_ok_iff.2 hn]
  rfl

/-- The slot that was changed is read as the change left it. -/
theorem slot_self {name : String} {p : Place r} (hw : s.Wrote t h p.index g owner)
    (hp : s.place h name = .ok p) {slot : Slot} (hslot : p.slot? = some slot) :
    ∃ q, t.place h name = .ok q ∧ q.slot? = some (g slot) := by
  have hplace := hw.place h name
  rw [hp] at hplace
  refine ⟨_, hplace, ?_⟩
  change (if h = h then p.node.slots.modify p.index g else p.node.slots)[p.index]? = _
  rw [if_pos rfl, List.getElem?_modify_eq]
  exact congrArg (Option.map g) hslot

/-- Every other field is read as before. -/
theorem slot_other {name other : String} {k : Handle} {p q : Place r}
    (hw : s.Wrote t h p.index g owner) (hp : s.place h name = .ok p)
    (hq : s.place k other = .ok q) (hne : (k, other) ≠ (h, name)) :
    ∃ q', t.place k other = .ok q' ∧ q'.slot? = q.slot? ∧ ∀ w, q'.mismatch w = q.mismatch w := by
  have hplace := hw.place k other
  rw [hq] at hplace
  refine ⟨_, hplace, ?_, fun w => rfl⟩
  change (if k = h then q.node.slots.modify p.index g else q.node.slots)[q.index]? =
    q.node.slots[q.index]?
  by_cases hk : k = h
  · subst hk
    have hname : other ≠ name := fun e => hne (by rw [e])
    have hi := index_ne_of_place hp hq hname
    rw [if_pos rfl, List.getElem?_modify_ne _ _ hi.symm]
  · rw [if_neg hk]

end Wrote

/-! ### What stays -/

/-- The field that a question is about, if it is about one. -/
def Query.field? : Query → Option String
  | .value name | .child name | .children name => some name
  | _ => none

/-- **The store `t` tells what `s` tells**, apart from the field `name` of `h` and from the owners of
the nodes `moved`. -/
structure Frame (s t : Store r) (h : Handle) (name : String) (moved : List Handle) : Prop where
  contains : ∀ k, t.contains k = s.contains k
  node : ∀ k q, q.field? = none → q ≠ .owner → t.ask k q = s.ask k q
  owner : ∀ k, k ∉ moved → t.owner k = s.owner k
  field : ∀ k q other, q.field? = some other → (k, other) ≠ (h, name) → t.ask k q = s.ask k q

namespace Wrote

variable {h : Handle} {g : Slot → Slot} {owner : Handle → Node r → Option Handle}
  {name : String} {p : Place r}

theorem ask_node {i : ℕ} (hw : s.Wrote t h i g owner) (k : Handle) {q : Query}
    (hfield : q.field? = none) (howner : q ≠ .owner) : t.ask k q = s.ask k q := by
  have hk := hw.node k
  cases q with
  | owner => exact (howner rfl).elim
  | value other => cases hfield
  | child other => cases hfield
  | children other => cases hfield
  | header =>
    rw [ask, ask, header, header, hk]
    cases s.node k <;> rfl
  | variantName =>
    rw [ask, ask, variantName, variantName, hk]
    cases s.node k <;> rfl
  | discriminator =>
    rw [ask, ask, discriminator, discriminator, hk]
    cases s.node k <;> rfl
  | family =>
    rw [ask, ask, family, family, hk]
    cases s.node k <;> rfl
  | isMarked =>
    rw [ask, ask, isMarked, isMarked, hk]
    cases s.node k <;> rfl

theorem fields_other (hw : s.Wrote t h p.index g owner) (hp : s.place h name = .ok p) {k : Handle}
    {other : String} (hne : (k, other) ≠ (h, name)) :
    t.value k other = s.value k other ∧ t.child k other = s.child k other ∧
      t.children k other = s.children k other := by
  cases hq : s.place k other with
  | error e =>
    have hq' : t.place k other = .error e := by
      rw [hw.place, hq]
      rfl
    simp only [value, child, children, hq, hq', true_and]
  | ok q =>
    obtain ⟨q', hq', hslot, hmismatch⟩ := hw.slot_other hp hq hne
    refine ⟨?_, ?_, ?_⟩
    · rw [value_of_place hq, value_of_place hq', hslot, hmismatch]
    · rw [child_of_place hq, child_of_place hq', hslot, hmismatch]
    · rw [children_of_place hq, children_of_place hq', hslot, hmismatch]

theorem ask_field (hw : s.Wrote t h p.index g owner) (hp : s.place h name = .ok p) {k : Handle}
    {q : Query} {other : String} (hfield : q.field? = some other) (hne : (k, other) ≠ (h, name)) :
    t.ask k q = s.ask k q := by
  obtain ⟨hvalue, hchild, hchildren⟩ := hw.fields_other hp hne
  cases q with
  | value _ =>
    cases hfield
    rw [ask, ask, hvalue]
  | child _ =>
    cases hfield
    rw [ask, ask, hchild]
  | children _ =>
    cases hfield
    rw [ask, ask, hchildren]
  | _ => cases hfield

/-- **A change of one slot is seen in one field**, and in the owners that have changed with it. -/
theorem frame (hw : s.Wrote t h p.index g owner) (hp : s.place h name = .ok p)
    {moved : List Handle} (hmoved : ∀ k n, k ∉ moved → owner k n = n.owner) :
    s.Frame t h name moved where
  contains := hw.contains
  node := fun k _ hfield howner => hw.ask_node k hfield howner
  owner := by
    intro k hk
    rw [Store.owner, Store.owner, hw.node k]
    cases s.node k with
    | error e => rfl
    | ok n => exact congrArg Except.ok (hmoved k n hk)
  field := fun _ _ _ hfield hne => hw.ask_field hp hfield hne

end Wrote

/-! ### Writes -/

/-- A child of a node that may be attached elsewhere would have two owners. -/
theorem OK.ne_of_attachPlace (hs : s.OK) {wanted : Ownership} {h c k : Handle} {field : String}
    {p : Place r} (hp : s.attachPlace wanted h field c = .ok p) {slot : Slot}
    (hslot : p.slot? = some slot) (hk : k ∈ slot.handles) :
    k ≠ c ∧ ∃ n, s.get? k = some n := by
  obtain ⟨hplace, -, m, -, -, hm, hmo, -⟩ := attachPlace_ok hp
  have hn := (place_ok hplace).1
  have hmem : k ∈ p.node.children :=
    List.mem_flatMap.2 ⟨slot, List.mem_of_getElem? hslot, hk⟩
  obtain ⟨n, hkn, hno⟩ := hs.forest.held h p.node hn k hmem
  refine ⟨?_, n, hkn⟩
  rintro rfl
  rw [hm] at hkn
  cases hkn
  rw [hmo] at hno
  cases hno

theorem Effect.reads_setValue {h : Handle} {name text : String} {x : Answer}
    (he : s.Effect (.setValue h name text) (.ok x) t) :
    ∃ old, x = .text old ∧ s.value h name = .ok old ∧ t.value h name = .ok (some text) ∧
      s.Frame t h name [] := by
  cases he with
  | setValue _ _ _ p old hp hslot =>
    have hw := s.wrote_setSlot h p.index fun _ => .value (some text)
    obtain ⟨q, hq, hqslot⟩ := hw.slot_self hp hslot
    refine ⟨old, rfl, ?_, ?_, hw.frame hp fun _ _ _ => rfl⟩
    · rw [value_of_place hp, hslot]
    · rw [value_of_place hq, hqslot]

theorem OK.reads_setChild (hs : s.OK) {h c : Handle} {name : String} {x : Answer}
    (he : s.Effect (.setChild h name c) (.ok x) t) :
    ∃ old, x = .node old ∧ s.child h name = .ok old ∧ t.child h name = .ok (some c) ∧
      t.owner c = .ok (some h) ∧ (∀ k, old = some k → t.contains k ∧ t.owner k = .ok none) ∧
      s.Frame t h name (c :: old.toList) := by
  cases he with
  | setChild _ _ _ p old hp hslot =>
    obtain ⟨hplace, -, m, -, -, hm, -⟩ := attachPlace_ok hp
    have hw := s.wrote_linkChild p old h c
    obtain ⟨q, hq, hqslot⟩ := hw.slot_self hplace hslot
    have hold : ∀ k, old = some k → k ≠ c ∧ ∃ n, s.get? k = some n := by
      rintro k rfl
      exact hs.ne_of_attachPlace hp hslot (by simp [Slot.handles])
    refine ⟨old, rfl, ?_, ?_, ?_, fun k hk => ?_, hw.frame hplace fun k n hk => ?_⟩
    · rw [child_of_place hplace, hslot]
    · rw [child_of_place hq, hqslot]
    · have hc : old ≠ some c := fun e => (hold c e).1 rfl
      rw [hw.owner_of_get? hm, if_neg hc, if_pos rfl]
    · obtain ⟨-, n, hn⟩ := hold k hk
      refine ⟨?_, by rw [hw.owner_of_get? hn, if_pos hk]⟩
      rw [hw.contains, Store.contains, hn]
      rfl
    · simp only [List.mem_cons, Option.mem_toList, not_or] at hk
      rw [if_neg hk.2, if_neg hk.1]

theorem Effect.reads_pushChild {h c : Handle} {name : String} {x : Answer}
    (he : s.Effect (.pushChild h name c) (.ok x) t) :
    ∃ old new, x = .done ∧ s.children h name = .ok old ∧ t.children h name = .ok new ∧
      new.toList = old.toList ++ [c] ∧ t.owner c = .ok (some h) ∧ s.Frame t h name [c] := by
  cases he with
  | pushChild _ _ _ p nodes hp hslot =>
    obtain ⟨hplace, -, m, -, -, hm, -⟩ := attachPlace_ok hp
    have hw := s.wrote_linkLast p nodes h c
    obtain ⟨q, hq, hqslot⟩ := hw.slot_self hplace hslot
    refine ⟨nodes, nodes.push c, rfl, ?_, ?_, nodes.toList_push c, ?_,
      hw.frame hplace fun k n hk => ?_⟩
    · rw [children_of_place hplace, hslot]
    · rw [children_of_place hq, hqslot]
    · rw [hw.owner_of_get? hm, if_pos rfl]
    · rw [if_neg (List.mem_singleton.not.1 hk)]

/-- **Reads after writes**, after every run of actions over any registry. A write that succeeds gives
what its field held before, and the field holds afterwards what was written: a value, a child, or the
children of before and one more behind them. A child that comes to a node has it as its owner, and a
child that is replaced stays live without an owner. All other fields of all nodes, all other owners,
and what nodes tell of themselves are as they were. -/
theorem reads_after_writes (r : Registry) (actions : List Action) :
    let s := ((empty : Store r).run actions).2
    (∀ h name text x t, s.perform (.setValue h name text) = (.ok x, t) →
      ∃ old, x = .text old ∧ s.value h name = .ok old ∧ t.value h name = .ok (some text) ∧
        s.Frame t h name []) ∧
    (∀ h name c x t, s.perform (.setChild h name c) = (.ok x, t) →
      ∃ old, x = .node old ∧ s.child h name = .ok old ∧ t.child h name = .ok (some c) ∧
        t.owner c = .ok (some h) ∧ (∀ k, old = some k → t.contains k ∧ t.owner k = .ok none) ∧
        s.Frame t h name (c :: old.toList)) ∧
    (∀ h name c x t, s.perform (.pushChild h name c) = (.ok x, t) →
      ∃ old new, x = .done ∧ s.children h name = .ok old ∧ t.children h name = .ok new ∧
        new.toList = old.toList ++ [c] ∧ t.owner c = .ok (some h) ∧ s.Frame t h name [c]) := by
  intro s
  have hs : s.OK := ok_run r actions
  have heffect : ∀ {a : Action} {x t}, s.perform a = (.ok x, t) → s.Effect a (.ok x) t := by
    intro a x t ha
    have he := s.perform_effect a
    rwa [ha] at he
  exact ⟨fun _ _ _ _ _ ha => (heffect ha).reads_setValue,
    fun _ _ _ _ _ ha => hs.reads_setChild (heffect ha),
    fun _ _ _ _ _ ha => (heffect ha).reads_pushChild⟩

/-- Links, which have a field of the name that their base record adds, and hide that one. -/
def linkSource : Source :=
  .ofTables [("expr", ["Expr : Node self, Expr *next", "Link : Expr *next"])]

/-- Their registry. -/
def linkRegistry : Registry :=
  ⟨[], [⟨"expr",
    ⟨"Expr", [⟨.value nodeHeaderName, headerMember⟩, ⟨.pointer "Expr", "next"⟩],
      .builtin "expr" 0⟩,
    [⟨"Link", [⟨.pointer "Expr", "next"⟩], .builtin "expr" 1⟩]⟩], [⟨"NODE_LINK", "Link", 0⟩]⟩

/-- Of the two slots of one name, the one that is written is the one that is read. -/
theorem reads_after_writes_link :
    linkSource.build = .ok linkRegistry ∧
      let s := ((empty : Store linkRegistry).run [.allocate "Link" 1, .allocate "Link" 2]).2
      (s.perform (.setChild ⟨1, 0⟩ "next" ⟨0, 0⟩)).1 = .ok (.node none) ∧
        (s.perform (.setChild ⟨1, 0⟩ "next" ⟨0, 0⟩)).2.child ⟨1, 0⟩ "next" = .ok (some ⟨0, 0⟩) ∧
        (s.perform (.setChild ⟨1, 0⟩ "next" ⟨0, 0⟩)).2.owner ⟨0, 0⟩ = .ok (some ⟨1, 0⟩) := by
  obtain ⟨-, hchild, -⟩ :=
    reads_after_writes linkRegistry [.allocate "Link" 1, .allocate "Link" 2]
  have hok : (((empty : Store linkRegistry).run
      [.allocate "Link" 1, .allocate "Link" 2]).2.perform
        (.setChild ⟨1, 0⟩ "next" ⟨0, 0⟩)).1 = .ok (.node none) := by
    decide +kernel
  obtain ⟨-, -, -, hread, howner, -⟩ :=
    hchild ⟨1, 0⟩ "next" ⟨0, 0⟩ (.node none) _ (Prod.ext hok rfl)
  exact ⟨by decide +kernel, hok, hread, howner⟩

end Store

end NodeSchema

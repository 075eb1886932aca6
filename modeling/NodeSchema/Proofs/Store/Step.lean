import NodeSchema.Proofs.Store.Place
import Mathlib.Tactic.SplitIfs

/-!
# The actions of a store in closed form

Each action either fails and leaves the store alone, or ends in a store that is given here in closed
form (`perform_allocate`, …, `perform_freeTree`), so no later proof opens a computation.

* `Effect`: what an action can do, one case for each way in which it succeeds, and one for refusals.
  `perform_effect` is the case split with which a proof about all actions starts.
* `get?_linkChild`, `get?_linkLast`: attaching changes one slot of the parent and the owners of the
  children that come and go, and nothing else.
-/

namespace NodeSchema.Store

variable {r : Registry} {s t : Store r}

/-! ### Running a computation -/

section

variable {α β : Type}

theorem run_get_bind (f : Store r → StoreM r α) (s : Store r) :
    ExceptT.run (get >>= f) s = ExceptT.run (f s) s :=
  rfl

theorem run_lift_bind (x : Except Error α) (f : α → StoreM r β) (s : Store r) :
    ExceptT.run (liftM x >>= f) s =
      match x with
      | .ok a => ExceptT.run (f a) s
      | .error e => (.error e, s) := by
  cases x <;> rfl

theorem run_map (g : α → β) (x : StoreM r α) (s : Store r) :
    ExceptT.run (g <$> x) s = ((ExceptT.run x s).1.map g, (ExceptT.run x s).2) := by
  rw [ExceptT.run_map]
  rfl

end

/-! ### The actions -/

/-- A node is made exactly of a variant that the registry has. -/
theorem perform_allocate (s : Store r) (variant : String) (line : ℕ) :
    s.perform (.allocate variant line) =
      match r.variant? variant, r.discriminatorOf? variant with
      | some (f, v), some kind =>
        (.ok (.made (s.insert (.fresh f v kind line)).1), (s.insert (.fresh f v kind line)).2)
      | _, _ => (.error (.unknownVariant variant), s) := by
  simp only [perform, Action.toStoreM, allocate, run_map]
  cases r.variant? variant with
  | none => rfl
  | some fv => cases r.discriminatorOf? variant <;> rfl

/-- A value is replaced in a slot for values, and the old one is given back. -/
theorem perform_setValue (s : Store r) (h : Handle) (field text : String) :
    s.perform (.setValue h field text) =
      match s.place h field with
      | .error e => (.error e, s)
      | .ok p =>
        match p.slot? with
        | some (.value old) =>
          (.ok (.text old), s.update h (·.setSlot p.index fun _ => .value (some text)))
        | _ => (.error (p.mismatch .value), s) := by
  simp only [perform, Action.toStoreM, setValue, run_map, run_get_bind, run_lift_bind]
  cases s.place h field with
  | error e => rfl
  | ok p =>
    simp only
    cases p.slot? with
    | none => rfl
    | some slot => cases slot <;> rfl

/-- The store after a child took the place of the one that was there before. -/
def linkChild (s : Store r) (p : Place r) (previous : Option Handle) (h c : Handle) : Store r :=
  let t := (s.update h (·.setSlot p.index fun _ => .child (some c))).setOwner c (some h)
  match previous with
  | some old => t.setOwner old none
  | none => t

/-- A child is put into a slot for one child if it can be attached there, and the one before it is
given back. -/
theorem perform_setChild (s : Store r) (h : Handle) (field : String) (c : Handle) :
    s.perform (.setChild h field c) =
      match s.attachPlace .child h field c with
      | .error e => (.error e, s)
      | .ok p =>
        match p.slot? with
        | some (.child previous) => (.ok (.node previous), s.linkChild p previous h c)
        | _ => (.error (p.mismatch .child), s) := by
  simp only [perform, Action.toStoreM, setChild, run_map, run_get_bind, run_lift_bind]
  cases s.attachPlace .child h field c with
  | error e => rfl
  | ok p =>
    simp only
    cases p.slot? with
    | none => rfl
    | some slot =>
      cases slot with
      | child previous => cases previous <;> rfl
      | value text => rfl
      | children nodes => rfl

/-- The store after a child was put behind the children `nodes` of a sequence. -/
def linkLast (s : Store r) (p : Place r) (nodes : Sequence Handle) (h c : Handle) : Store r :=
  (s.update h (·.setSlot p.index fun _ => .children (nodes.push c))).setOwner c (some h)

/-- A child is put behind those of a slot for sequences if it can be attached there. -/
theorem perform_pushChild (s : Store r) (h : Handle) (field : String) (c : Handle) :
    s.perform (.pushChild h field c) =
      match s.attachPlace .sequence h field c with
      | .error e => (.error e, s)
      | .ok p =>
        match p.slot? with
        | some (.children nodes) => (.ok .done, s.linkLast p nodes h c)
        | _ => (.error (p.mismatch .sequence), s) := by
  simp only [perform, Action.toStoreM, pushChild, run_map, run_get_bind, run_lift_bind]
  cases s.attachPlace .sequence h field c with
  | error e => rfl
  | ok p =>
    simp only
    cases p.slot? with
    | none => rfl
    | some slot => cases slot <;> rfl

/-- A live node is marked, and the answer says whether it was marked before. -/
theorem perform_mark (s : Store r) (h : Handle) :
    s.perform (.mark h) =
      match s.node h with
      | .ok n => (.ok (.flag n.marked), s.update h fun n => { n with marked := true })
      | .error e => (.error e, s) := by
  simp only [perform, Action.toStoreM, mark, run_map, run_get_bind, run_lift_bind]
  cases s.node h <;> rfl

/-- The store without marks. -/
def unmarked (s : Store r) : Store r :=
  { s with cells := s.cells.map fun c =>
      { c with node? := c.node?.map fun n => { n with marked := false } } }

/-- Taking all marks away is never refused. -/
theorem perform_clearMarks (s : Store r) : s.perform .clearMarks = (.ok .done, s.unmarked) :=
  rfl

/-- The store in which a node has been taken away from its owner, if it has one. -/
def isolate (s : Store r) (n : Node r) (h : Handle) : Store r :=
  match n.owner with
  | some p => s.detach p h
  | none => s

/-- A live node is taken away from its owner and released with all below it; the answer is their
number. -/
theorem perform_freeTree (s : Store r) (root : Handle) :
    s.perform (.freeTree root) =
      match s.get? root with
      | some n =>
        (.ok (.count (release [root] (s.isolate n root)).1), (release [root] (s.isolate n root)).2)
      | none => (.error (.staleNode root.index), s) := by
  simp only [perform, Action.toStoreM, freeTree, run_map, run_get_bind, run_lift_bind, node]
  cases s.get? root with
  | none => rfl
  | some n =>
    simp only [isolate]
    cases n.owner <;> rfl

/-- **What an action does**: the answer and the store that it ends in. It is refused, which leaves
the store alone, or it has the effect that is peculiar to it. -/
inductive Effect (s : Store r) : Action → Except Error Answer → Store r → Prop
  | refused (a : Action) (e : Error) : e.AboutNodes → Effect s a (.error e) s
  | allocate (variant : String) (line : ℕ) (f : Family) (v : Record) (kind : ℕ) :
      r.variant? variant = some (f, v) → r.discriminatorOf? variant = some kind →
      Effect s (.allocate variant line) (.ok (.made (s.insert (.fresh f v kind line)).1))
        (s.insert (.fresh f v kind line)).2
  | setValue (h : Handle) (field text : String) (p : Place r) (old : Option String) :
      s.place h field = .ok p → p.slot? = some (.value old) →
      Effect s (.setValue h field text) (.ok (.text old))
        (s.update h (·.setSlot p.index fun _ => .value (some text)))
  | setChild (h : Handle) (field : String) (c : Handle) (p : Place r) (previous : Option Handle) :
      s.attachPlace .child h field c = .ok p → p.slot? = some (.child previous) →
      Effect s (.setChild h field c) (.ok (.node previous)) (s.linkChild p previous h c)
  | pushChild (h : Handle) (field : String) (c : Handle) (p : Place r) (nodes : Sequence Handle) :
      s.attachPlace .sequence h field c = .ok p → p.slot? = some (.children nodes) →
      Effect s (.pushChild h field c) (.ok .done) (s.linkLast p nodes h c)
  | mark (h : Handle) (n : Node r) : s.node h = .ok n →
      Effect s (.mark h) (.ok (.flag n.marked)) (s.update h fun n => { n with marked := true })
  | clearMarks : Effect s .clearMarks (.ok .done) s.unmarked
  | freeTree (root : Handle) (n : Node r) : s.get? root = some n →
      Effect s (.freeTree root) (.ok (.count (release [root] (s.isolate n root)).1))
        (release [root] (s.isolate n root)).2

/-- Every action has one of these effects, so a proof about all actions is one case for each. -/
theorem perform_effect (s : Store r) (a : Action) :
    s.Effect a (s.perform a).1 (s.perform a).2 := by
  cases a with
  | allocate variant line =>
    rw [perform_allocate]
    split
    · rename_i f v kind hv hk
      exact .allocate variant line f v kind hv hk
    · exact .refused _ _ ⟨rfl, rfl⟩
  | setValue h field text =>
    rw [perform_setValue]
    cases hp : s.place h field with
    | error e => exact .refused _ e (aboutNodes_of_place hp)
    | ok p =>
      simp only
      split
      · rename_i hslot
        exact .setValue h field text p _ hp hslot
      · exact .refused _ _ (misuse_mismatch p _).toAboutNodes
  | setChild h field c =>
    rw [perform_setChild]
    cases hp : s.attachPlace .child h field c with
    | error e => exact .refused _ e (aboutNodes_of_attachPlace hp)
    | ok p =>
      simp only
      split
      · rename_i hslot
        exact .setChild h field c p _ hp hslot
      · exact .refused _ _ (misuse_mismatch p _).toAboutNodes
  | pushChild h field c =>
    rw [perform_pushChild]
    cases hp : s.attachPlace .sequence h field c with
    | error e => exact .refused _ e (aboutNodes_of_attachPlace hp)
    | ok p =>
      simp only
      split
      · rename_i hslot
        exact .pushChild h field c p _ hp hslot
      · exact .refused _ _ (misuse_mismatch p _).toAboutNodes
  | mark h =>
    rw [perform_mark]
    cases hn : s.node h with
    | error e => exact .refused _ e (misuse_of_node hn).toAboutNodes
    | ok n => exact .mark h n hn
  | clearMarks =>
    rw [perform_clearMarks]
    exact .clearMarks
  | freeTree root =>
    rw [perform_freeTree]
    cases hn : s.get? root with
    | none => exact .refused _ _ ⟨rfl, rfl⟩
    | some n => exact .freeTree root n hn

/-! ### Views after an action -/

/-- Attaching a child fills and empties no cell. -/
theorem sameCells_linkChild (s : Store r) (p : Place r) (previous : Option Handle) (h c : Handle) :
    SameCells s (s.linkChild p previous h c) := by
  have h2 := (sameCells_update s h (·.setSlot p.index fun _ => .child (some c))).trans
    (sameCells_update _ c fun n => { n with owner := some h })
  unfold linkChild
  cases previous with
  | none => exact h2
  | some old => exact h2.trans (sameCells_update _ old _)

theorem sameCells_linkLast (s : Store r) (p : Place r) (nodes : Sequence Handle) (h c : Handle) :
    SameCells s (s.linkLast p nodes h c) :=
  (sameCells_update s h _).trans (sameCells_update _ c _)

theorem sameCells_unmarked (s : Store r) : SameCells s s.unmarked := by
  refine ⟨rfl, rfl, ?_⟩
  unfold unmarked
  rw [Array.map_map]
  congr 1
  funext c
  simp [Cell.outline]

theorem sameCells_isolate (s : Store r) (n : Node r) (h : Handle) : SameCells s (s.isolate n h) := by
  unfold isolate
  cases n.owner with
  | none => exact SameCells.refl s
  | some p => exact sameCells_update s p _

/-- The view after a slot of the parent has changed and the child has got its owner. -/
theorem get?_link (s : Store r) (h c k : Handle) (i : ℕ) (g : Slot → Slot) :
    ((s.update h (·.setSlot i g)).setOwner c (some h)).get? k = (s.get? k).map fun n =>
      { n with
        owner := if k = c then some h else n.owner
        slots := if k = h then n.slots.modify i g else n.slots } := by
  unfold setOwner
  rw [get?_update, get?_update]
  cases s.get? k with
  | none => simp
  | some n => split_ifs <;> rfl

/-- **The view after a child took the place of another one.** -/
theorem get?_linkChild (s : Store r) (p : Place r) (previous : Option Handle) (h c k : Handle) :
    (s.linkChild p previous h c).get? k = (s.get? k).map fun n =>
      { n with
        owner := if previous = some k then none else if k = c then some h else n.owner
        slots := if k = h then n.slots.modify p.index fun _ => .child (some c) else n.slots } := by
  have h2 := get?_link s h c k p.index fun _ => .child (some c)
  -- the old child, if there is one, loses its owner last
  unfold linkChild
  cases previous with
  | none => simpa using h2
  | some old =>
    simp only [Option.some.injEq]
    unfold setOwner at h2 ⊢
    rw [get?_update, h2]
    cases s.get? k with
    | none => simp
    | some n =>
      by_cases ho : k = old
      · simp only [Option.map_some, if_pos ho, if_pos ho.symm]
      · have ho' : old ≠ k := fun e => ho e.symm
        simp only [Option.map_some, if_neg ho, if_neg ho']

/-- **The view after a child was put behind those of a sequence.** -/
theorem get?_linkLast (s : Store r) (p : Place r) (nodes : Sequence Handle) (h c k : Handle) :
    (s.linkLast p nodes h c).get? k = (s.get? k).map fun n =>
      { n with
        owner := if k = c then some h else n.owner
        slots :=
          if k = h then n.slots.modify p.index fun _ => .children (nodes.push c)
          else n.slots } :=
  get?_link s h c k p.index _

/-- The view after all marks were taken away. -/
theorem get?_unmarked (s : Store r) (k : Handle) :
    s.unmarked.get? k = (s.get? k).map fun n => { n with marked := false } := by
  unfold unmarked get?
  simp only [Array.getElem?_map]
  cases s.cells[k.index]? with
  | none => rfl
  | some c =>
    simp only [Option.map_some]
    split <;> rfl

/-- **The view after a node was taken away from its owner.** -/
theorem get?_isolate (s : Store r) (n : Node r) (h k : Handle) :
    (s.isolate n h).get? k = (s.get? k).map fun m =>
      if n.owner = some k then { m with slots := m.slots.map (·.erase h) } else m := by
  unfold isolate
  cases n.owner with
  | none => simp
  | some p =>
    simp only [detach]
    rw [get?_update]
    by_cases hk : k = p
    · simp [hk]
    · have hk' : p ≠ k := fun e => hk e.symm
      simp [hk, hk']

end NodeSchema.Store

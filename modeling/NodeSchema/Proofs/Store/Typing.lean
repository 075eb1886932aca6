import NodeSchema.Proofs.Registry.Numbering
import NodeSchema.Proofs.Store.Origin

/-!
# Typed trees

A child is compared with the type of its field when it is attached, and never again. This is enough: a
node keeps its variant as long as it is live, it leaves the slot that holds it when it is released, and
a node that is made in its cell afterwards has another handle.

* `Registry.Fits`: which variants a field of a type holds, said by the names of the registry.
* `Registry.holds_iff_fits`: this is what the check decides.
* `Typed`: every slot holds only nodes that its field holds, and `OK.typed_perform`: every action
  keeps this.
* `typedTrees_run`: after every run, all live nodes have the slots of their fields, and all children fit.
-/

namespace NodeSchema

/-! ### Fields and variants -/

namespace Registry

/-- **A field of the type `type` holds the variant `v` of the family `f`.** When the type is the base
record or the container of a family, it holds this family. When it is a variant, it holds this
variant. -/
structure Fits (r : Registry) (type : String) (f : Family) (v : Record) : Prop where
  family : ∀ g ∈ r.families, g.base.name = type ∨ g.containerType = type → f = g
  variant : (∀ g ∈ r.families, g.base.name ≠ type ∧ g.containerType ≠ type) →
    ∀ g ∈ r.families, ∀ w ∈ g.variants, w.name = type → f = g ∧ v = w

variable {r : Registry}

/-- The family to which a type leads is the one that has it for its base record or its container. -/
theorem Consistent.family_of_type (h : r.Consistent) {type : String} {g : Family} :
    (r.familyByBase? type).or (r.familyByContainer? type) = some g ↔
      g ∈ r.families ∧ (g.base.name = type ∨ g.containerType = type) := by
  rw [Option.or_eq_some_iff, h.looksUp.familyByBase.some_iff, h.looksUp.familyByBase.none_iff,
    h.looksUp.familyByContainer.some_iff]
  constructor
  · rintro (⟨hg, hb⟩ | ⟨-, hg, hk⟩)
    · exact ⟨hg, .inl hb⟩
    · exact ⟨hg, .inr hk⟩
  · rintro ⟨hg, hb | hk⟩
    · exact .inl ⟨hg, hb⟩
    · refine .inr ⟨fun hmem => ?_, hg, hk⟩
      obtain ⟨f, hf, hb⟩ := List.mem_map.1 hmem
      exact h.base_ne_container hf hg (hb.trans hk.symm)

/-- The type of a family fits the variants of this family. -/
theorem Consistent.fits_iff_eq (h : r.Consistent) {type : String} {f g : Family} {v : Record}
    (hg : g ∈ r.families) (htype : g.base.name = type ∨ g.containerType = type) :
    r.Fits type f v ↔ f = g := by
  constructor
  · exact fun hfits => hfits.family g hg htype
  · rintro rfl
    refine ⟨fun g' hg' htype' => ?_, fun hno => (not_or.2 (hno f hg) htype).elim⟩
    have hfind := h.family_of_type.2 ⟨hg, htype⟩
    rw [h.family_of_type.2 ⟨hg', htype'⟩] at hfind
    exact (Option.some.inj hfind).symm

/-- A type that is not that of a family fits the variant of its name, or everything if there is no
such variant. -/
theorem Consistent.fits_iff_name (h : r.Consistent) {type : String} {f : Family} {v : Record}
    (hf : f ∈ r.families) (hv : v ∈ f.variants)
    (hno : ∀ g ∈ r.families, g.base.name ≠ type ∧ g.containerType ≠ type) :
    r.Fits type f v ↔ r.variant? type = none ∨ v.name = type := by
  have hvar := h.looksUp.variant
  constructor
  · intro hfits
    cases hw : r.variant? type with
    | none => exact .inl rfl
    | some gw =>
      obtain ⟨g, w⟩ := gw
      obtain ⟨hmem, hname⟩ := (hvar.some_iff _ _).1 hw
      obtain ⟨hg, hw'⟩ := mem_variants_iff.1 hmem
      obtain ⟨-, rfl⟩ := hfits.variant hno g hg w hw' hname
      exact .inr hname
  · intro hname
    refine ⟨fun g hg htype => (not_or.2 (hno g hg) htype).elim, fun _ g hg w hw hwt => ?_⟩
    have hfind := (hvar.some_iff type (g, w)).2 ⟨mem_variants_iff.2 ⟨hg, hw⟩, hwt⟩
    rcases hname with hnone | hname
    · rw [hfind] at hnone
      cases hnone
    · rw [(hvar.some_iff type (f, v)).2 ⟨mem_variants_iff.2 ⟨hf, hv⟩, hname⟩] at hfind
      cases hfind
      exact ⟨rfl, rfl⟩

/-- **The check of a child decides whether its variant fits.** -/
theorem holds_iff_fits (h : r.Consistent) {type : String} {f : Family} {v : Record}
    (hf : f ∈ r.families) (hv : v ∈ f.variants) : r.holds type f v ↔ r.Fits type f v := by
  unfold holds
  cases hfind : (r.familyByBase? type).or (r.familyByContainer? type) with
  | some g =>
    obtain ⟨hg, htype⟩ := h.family_of_type.1 hfind
    rw [h.fits_iff_eq hg htype]
    simp only [decide_eq_true_eq]
    exact ⟨List.inj_on_of_nodup_map h.groups hf hg, fun e => e ▸ rfl⟩
  | none =>
    have hno : ∀ g ∈ r.families, g.base.name ≠ type ∧ g.containerType ≠ type := by
      intro g hg
      rw [← not_or]
      intro htype
      rw [h.family_of_type.2 ⟨hg, htype⟩] at hfind
      cases hfind
    rw [h.fits_iff_name hf hv hno]
    simp only [Bool.or_eq_true, Option.isNone_iff_eq_none, decide_eq_true_eq]

end Registry

namespace Store

variable {r : Registry} {s t : Store r}

/-! ### Slots and children -/

/-- **Every slot holds only nodes that its field holds.** -/
def Typed (s : Store r) : Prop :=
  ∀ p n, s.get? p = some n → ∀ i c, n.InSlot i c → s.Holds n i c

/-- A slot that holds a node in one store holds it in another one, where the node is live still and
both nodes have kept their variants. -/
theorem Holds.transfer {n m : Node r} {i : ℕ} {c : Handle} (h : s.Holds n i c)
    (hshape : m.shape = n.shape)
    (hc : ∀ q, s.get? c = some q → ∃ q', t.get? c = some q' ∧ q'.shape = q.shape) :
    t.Holds m i c := by
  obtain ⟨f, v, field, hn, hfield, q, g, w, hq, hgw, hholds⟩ := h
  obtain ⟨q', hq', hqq⟩ := hc q hq
  exact ⟨f, v, field, hshape.trans hn, hfield, q', g, w, hq', hqq.trans hgw, hholds⟩

/-- **Every action keeps the types.** A child that is in a slot afterwards was there before, or has
been attached just now, and is live in both stores. -/
theorem OK.typed_perform (hs : s.OK) (ht : s.Typed) (a : Action) : (s.perform a).2.Typed := by
  intro p m hm i c hc
  obtain ⟨q', hq', -⟩ := (hs.perform a).forest.held p m hm c hc.mem_children
  have hlive : ∀ q, s.get? c = some q → ∃ q', (s.perform a).2.get? c = some q' ∧
      q'.shape = q.shape := fun q hq =>
    ⟨q', hq', congrArg (fun x : Header => r.shape x.kind) (hs.toHeader_perform hq hq')⟩
  cases hs.origin (s.perform_effect a) hm with
  | kept n hn hk =>
    rcases hk.slots i c hc with hc | hholds
    · exact (ht p n hn i c hc).transfer hk.shape hlive
    · exact hholds.transfer hk.shape hlive
  | made f v kind line _ hfresh =>
    rw [hfresh] at hc
    exact (Node.not_inSlot_fresh hc).elim

theorem typed_empty : (empty : Store r).Typed := by
  intro p n hn
  rw [get?_empty] at hn
  cases hn

theorem OK.typed_run (hs : s.OK) (ht : s.Typed) (actions : List Action) :
    (s.run actions).2.Typed := by
  induction actions generalizing s with
  | nil => exact ht
  | cons a rest ih => exact ih (hs.perform a) (hs.typed_perform ht a)

/-! ### Nodes -/

/-- **A typed node**: it is of the variant `v` of the family `f`, has one slot for each field of the
base record and then one for each field of the variant, of the kinds that the fields prescribe, and
holds only live nodes of variants that fit. -/
structure TypedNode (s : Store r) (n : Node r) (f : Family) (v : Record) : Prop where
  family : f ∈ r.families
  variant : v ∈ f.variants
  shape : n.shape = .ok (f, v)
  slots : n.slots.map Slot.ownership = (f.base.extraFields ++ v.fields).map Field.ownership
  children : ∀ (i : ℕ) field slot, (f.base.extraFields ++ v.fields)[i]? = some field →
    n.slots[i]? = some slot → ∀ c ∈ slot.handles,
      ∃ m g w, s.get? c = some m ∧ m.shape = .ok (g, w) ∧ g ∈ r.families ∧ w ∈ g.variants ∧
        r.Fits field.type.typeName g w

/-- The variant of a node is one of the registry. -/
theorem mem_of_shape (hc : r.Consistent) {n : Node r} {f : Family} {v : Record}
    (hn : n.shape = .ok (f, v)) : f ∈ r.families ∧ v ∈ f.variants :=
  Registry.mem_variants_iff.1 ((hc.looksUp.variant.some_iff _ _).1 (Registry.shape_ok_iff.1 hn)).1

theorem OK.typedNode (hs : s.OK) (ht : s.Typed) (hc : r.Consistent) {h : Handle} {n : Node r}
    (hn : s.get? h = some n) : ∃ f v, s.TypedNode n f v := by
  obtain ⟨f, v, hshape, hslots⟩ := hs.shape h n hn
  obtain ⟨hf, hv⟩ := mem_of_shape hc hshape
  refine ⟨f, v, hf, hv, hshape, hslots, fun i field slot hfield hslot c hmem => ?_⟩
  obtain ⟨f', v', field', hshape', hfield', m, g, w, hm, hgw, hholds⟩ :=
    ht h n hn i c ⟨slot, hslot, hmem⟩
  -- the field in `Holds` is the one at this position
  rw [hshape] at hshape'
  cases hshape'
  obtain rfl : field = field' := Option.some.inj (hfield.symm.trans hfield')
  obtain ⟨hg, hw⟩ := mem_of_shape hc hgw
  exact ⟨m, g, w, hm, hgw, hg, hw, (Registry.holds_iff_fits hc hg hw).1 hholds⟩

/-- **Typed trees.** After every run of actions over a built registry, with any handles and whether
they succeed or not, every live node is typed. -/
theorem typedTrees_run {src : Source} (hr : src.build = .ok r) (actions : List Action) :
    let s := ((empty : Store r).run actions).2
    ∀ h n, s.get? h = some n → ∃ f v, s.TypedNode n f v := by
  intro s h n hn
  obtain ⟨-, hc⟩ := Source.declares_of_build hr
  exact (ok_run r actions).typedNode (OK.empty.typed_run typed_empty actions) hc hn

/-- A call that has a name for its callee. -/
theorem typedTrees_run_call :
    callSource.build = .ok callRegistry ∧
      ∃ n, ((empty : Store callRegistry).run callActions).2.get? ⟨1, 0⟩ = some n ∧
        n.children = [⟨0, 0⟩] ∧
        ((empty : Store callRegistry).run callActions).2.TypedNode n callFamily callVariant := by
  have hn : ((empty : Store callRegistry).run callActions).2.get? ⟨1, 0⟩ = some
      { kind := 1
        line := 2
        owner := none
        marked := false
        slots := [.value none, .child (some ⟨0, 0⟩), .children Sequence.empty] } := by
    decide +kernel
  obtain ⟨f, v, htyped⟩ := typedTrees_run build_callSource _ _ _ hn
  have hshape : callRegistry.shape 1 = .ok (callFamily, callVariant) := by decide +kernel
  obtain ⟨rfl, rfl⟩ : callFamily = f ∧ callVariant = v := by
    have he := htyped.shape
    rw [Node.shape, hshape] at he
    exact ⟨congrArg Prod.fst (Except.ok.inj he), congrArg Prod.snd (Except.ok.inj he)⟩
  exact ⟨build_callSource, _, hn, by decide, htyped⟩

end Store

end NodeSchema

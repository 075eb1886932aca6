import NodeSchema.Proofs.Keys
import NodeSchema.Proofs.Registry.Build
import Mathlib.Algebra.Ring.Nat
import Mathlib.Tactic.TFAE

/-!
# One numbering

The variants of a registry, family by family, are in one order, and everything that counts them counts
in this order: the list of variants, the discriminators, and every list that is made from these. Names
of variants are distinct and so are their enumerators, so each of these lists leads back to the
variant.

* `Registry.placed`: the order, as a list of the variants with their families and their positions.
* `Registry.Numbered`: what it means that a list of enumerators follows the order.
* `Registry.numbered`: the enumerators of a consistent registry do.
* `Registry.LooksUp`: what is looked up by a name is the one element of that name.
-/

namespace NodeSchema

namespace Registry

/-- All variants in order, each with the position of its family and the family. -/
def placed (r : Registry) : List (ℕ × Family × Record) :=
  r.families.zipIdx.flatMap fun (f, i) => f.variants.map fun v => (i, f, v)

theorem mem_placed_iff {r : Registry} {i : ℕ} {f : Family} {v : Record} :
    (i, f, v) ∈ r.placed ↔ r.families[i]? = some f ∧ v ∈ f.variants := by
  unfold placed
  rw [List.mem_flatMap]
  constructor
  · rintro ⟨⟨g, j⟩, hg, hv⟩
    obtain ⟨w, hw, he⟩ := List.mem_map.1 hv
    cases he
    exact ⟨List.mem_zipIdx_iff_getElem?.1 hg, hw⟩
  · rintro ⟨hf, hv⟩
    exact ⟨(f, i), List.mem_zipIdx_iff_getElem?.2 hf, List.mem_map.2 ⟨v, hv, rfl⟩⟩

theorem mem_variants_iff {r : Registry} {f : Family} {v : Record} :
    (f, v) ∈ r.variants ↔ f ∈ r.families ∧ v ∈ f.variants := by
  unfold variants
  simp only [List.mem_flatMap, List.mem_map, Prod.mk.injEq]
  constructor
  · rintro ⟨g, hg, w, hw, rfl, rfl⟩
    exact ⟨hg, hw⟩
  · rintro ⟨hf, hv⟩
    exact ⟨f, hf, v, hv, rfl, rfl⟩

/-! ### Lists in the order of the variants -/

theorem variants_eq_placed (r : Registry) : r.variants = r.placed.map Prod.snd := by
  unfold variants placed
  conv_lhs => rw [← List.zipIdx_map_fst 0 r.families]
  rw [List.flatMap_map, List.map_flatMap]
  simp [Function.comp_def]

theorem tagsFrom_eq_placed (r : Registry) :
    tagsFrom 0 r.families = r.placed.map fun (i, _, v) => v.tag i := by
  unfold tagsFrom placed
  simp [List.map_flatMap, Function.comp_def]

variable {r : Registry}

/-- No two variants share a name. -/
theorem Consistent.variantNames (h : r.Consistent) : (r.variants.map (·.2.name)).Nodup :=
  h.typeNames.of_append_right

theorem Consistent.placedNames (h : r.Consistent) : (r.placed.map (·.2.2.name)).Nodup := by
  have hv := h.variantNames
  rw [variants_eq_placed, List.map_map] at hv
  exact hv

/-- The number of variants. -/
theorem length_placed (r : Registry) :
    r.placed.length = (r.families.map (·.variants.length)).sum := by
  have hv := congrArg List.length r.variants_eq_placed
  rw [List.length_map] at hv
  rw [← hv, variants, List.length_flatMap]
  simp

/-- **The enumerators follow the order of the variants**, as the discriminators do. -/
structure Numbered (r : Registry) (enumerators : List String) : Prop where
  /-- All variants are counted. -/
  count : r.variantCount = (r.families.map (·.variants.length)).sum
  length : enumerators.length = r.variantCount
  nodup : enumerators.Nodup
  /-- Each variant has a discriminator. -/
  exists_position : ∀ f ∈ r.families, ∀ v ∈ f.variants, ∃ k, r.discriminatorOf? v.name = some k
  /-- The position of a variant is the same everywhere. -/
  position : ∀ i f v k, r.families[i]? = some f → v ∈ f.variants →
    [ r.discriminatorOf? v.name = some k
      , r.variants[k]? = some (f, v)
      , r.discriminators[k]? = some ⟨discriminatorName v.name, v.name, i⟩
      , enumerators[k]? = some (discriminatorName v.name) ].TFAE

/-- The discriminator of a variant is at the position of the variant. -/
theorem discriminatorOf?_eq_some_iff (hc : r.Consistent)
    (hd : r.discriminators = tagsFrom 0 r.families) {i : ℕ} {f : Family} {v : Record} {k : ℕ}
    (hp : (i, f, v) ∈ r.placed) :
    r.discriminatorOf? v.name = some k ↔ r.placed[k]? = some (i, f, v) := by
  have hnames : r.discriminators.map (·.variant) = r.placed.map (·.2.2.name) := by
    rw [hd, tagsFrom_eq_placed, List.map_map]
    rfl
  unfold discriminatorOf?
  rw [findIdx?_key_eq_some_iff (hnames ▸ hc.placedNames), hnames]
  exact getElem?_map_eq_some_iff hc.placedNames hp id fun _ => rfl

/-- **The enumerators of a consistent registry follow the order of the variants.** -/
theorem numbered (hc : r.Consistent) (hd : r.discriminators = tagsFrom 0 r.families) :
    r.Numbered (r.discriminators.map (·.name)) := by
  have htags : r.discriminators = r.placed.map fun (i, _, v) => v.tag i := by
    rw [hd, tagsFrom_eq_placed]
  have hnames : r.discriminators.map (·.name) =
      r.placed.map fun p => discriminatorName p.2.2.name := by
    rw [htags, List.map_map]
    rfl
  refine ⟨?_, List.length_map .., hc.tags, ?_, ?_⟩
  · rw [variantCount, htags, List.length_map, length_placed]
  · intro f hf v hv
    obtain ⟨i, hi⟩ := List.mem_iff_getElem?.1 hf
    have hp : (i, f, v) ∈ r.placed := mem_placed_iff.2 ⟨hi, hv⟩
    obtain ⟨k, hk⟩ := List.mem_iff_getElem?.1 hp
    exact ⟨k, (discriminatorOf?_eq_some_iff hc hd hp).2 hk⟩
  · intro i f v k hf hv
    have hp : (i, f, v) ∈ r.placed := mem_placed_iff.2 ⟨hf, hv⟩
    -- each list is the order under a map that keeps the variants apart
    tfae_have 1 ↔ 2 := by
      rw [discriminatorOf?_eq_some_iff hc hd hp, variants_eq_placed]
      exact (getElem?_map_eq_some_iff hc.placedNames hp (fun q => q.2.name) fun _ => rfl).symm
    tfae_have 1 ↔ 3 := by
      rw [discriminatorOf?_eq_some_iff hc hd hp, htags]
      exact (getElem?_map_eq_some_iff hc.placedNames hp Discriminator.variant fun _ => rfl).symm
    tfae_have 1 ↔ 4 := by
      rw [discriminatorOf?_eq_some_iff hc hd hp, hnames]
      exact (getElem?_map_eq_some_iff (hnames ▸ hc.tags) hp id fun _ => rfl).symm
    tfae_finish

/-! ### Look-ups -/

/-- What is looked up by a name is the one element of that name. -/
structure LooksUp (r : Registry) : Prop where
  variant : FindsOne r.variants (·.2.name) r.variant?
  family : FindsOne r.families (·.group) r.family?
  familyByBase : FindsOne r.families (·.base.name) r.familyByBase?
  familyByContainer : FindsOne r.families (·.containerType) r.familyByContainer?

/-- No two base records share a name. -/
theorem Consistent.bases (h : r.Consistent) : (r.families.map (·.base.name)).Nodup :=
  h.typeNames.of_append_left.of_append_left.of_append_right

theorem Consistent.looksUp (h : r.Consistent) : r.LooksUp where
  variant := findsOne_find? h.variantNames
  family := findsOne_find? h.groups
  familyByBase := findsOne_find? h.bases
  familyByContainer := findsOne_find? h.containers

end Registry

end NodeSchema

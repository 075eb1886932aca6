import NodeSchema.Registry.Build
import Mathlib.Data.List.Forall2
import Mathlib.Data.List.Nodup

/-!
# Consistent schemas

What it means that a source declares a registry, and that a registry is consistent, without a word
on how either is checked. `Proofs.Registry.Build` proves that building a registry decides the two.

* `Source.Declares`: the registry holds what the source declares, in the order of the source.
* `Registry.Consistent`: the names of the registry are identifiers, and no two of them clash.
-/

namespace NodeSchema

/-- The discriminator of a variant of the family at position `family`. -/
def Record.tag (v : Record) (family : Nat) : Discriminator :=
  ⟨discriminatorName v.name, v.name, family⟩

/-- The discriminators of families, the first of which is at position `start`. -/
def tagsFrom (start : Nat) (fs : List Family) : List Discriminator :=
  (fs.zipIdx start).flatMap fun (f, i) => f.variants.map fun v => v.tag i

/-- The record is what the entry declares. -/
def EntrySource.Declares (e : EntrySource) (v : Record) : Prop :=
  readEntry e.loc e.text = .ok v

/-- The family is what the family source declares: the first entry is its base record, and the
others are its variants. -/
structure FamilySource.Declares (s : FamilySource) (f : Family) : Prop where
  group : f.group = s.group
  entries : ∃ e es, s.entries = e :: es ∧ e.Declares f.base ∧
    List.Forall₂ EntrySource.Declares es f.variants

/-- The registry holds what the source declares. -/
structure Source.Declares (s : Source) (r : Registry) : Prop where
  enums : r.enums = s.enums.map fun e => ⟨e.name, e.members⟩
  families : List.Forall₂ FamilySource.Declares s.families r.families
  discriminators : r.discriminators = tagsFrom 0 r.families

namespace Registry

/-- The members of all enums. -/
def enumerators (r : Registry) : List String :=
  r.enums.flatMap (·.members)

/-- The names of all types. -/
def typeNames (r : Registry) : List String :=
  [nodeHeaderName, discriminatorEnumName] ++ r.enums.map (·.name) ++
    r.families.map (·.base.name) ++ r.families.map (·.containerType) ++ r.variants.map (·.2.name)

/-- **A consistent registry.** -/
structure Consistent (r : Registry) : Prop where
  /-- Enums, their members and groups have identifiers for names. -/
  enum_names : ∀ e ∈ r.enums, isIdentifier e.name ∧ ∀ m ∈ e.members, isIdentifier m
  group_names : ∀ f ∈ r.families, isIdentifier f.group
  /-- No enumerator occurs twice. -/
  enumerators : r.enumerators.Nodup
  /-- No two families share a group or a container. -/
  groups : (r.families.map (·.group)).Nodup
  containers : (r.families.map (·.containerType)).Nodup
  /-- Each base record starts with the node header. -/
  header : ∀ f ∈ r.families, ∃ rest, f.base.fields = ⟨.value nodeHeaderName, headerMember⟩ :: rest
  /-- The members of each record have names of their own, the embedded one of a variant too. -/
  base_fields : ∀ f ∈ r.families, (f.base.fields.map (·.name)).Nodup
  variant_fields : ∀ f ∈ r.families, ∀ v ∈ f.variants,
    (v.fields.map (·.name)).Nodup ∧ headerMember ∉ v.fields.map (·.name)
  /-- No two types share a name. -/
  typeNames : r.typeNames.Nodup
  /-- No two variants share a discriminator, and no enum has one of them. -/
  tags : (r.discriminators.map (·.name)).Nodup
  tags_enumerators : ∀ d ∈ r.discriminators, d.name ∉ r.enumerators

/-- A base record has the node header for its first field and then the fields that it adds. -/
theorem Consistent.base_fields_eq {r : Registry} (h : r.Consistent) {f : Family}
    (hf : f ∈ r.families) :
    f.base.fields = ⟨.value nodeHeaderName, headerMember⟩ :: f.base.extraFields := by
  obtain ⟨rest, hrest⟩ := h.header f hf
  rw [Record.extraFields, hrest]
  exact congrArg _ (if_pos rfl).symm

/-- The base record of a family and the container of a family never share a name. -/
theorem Consistent.base_ne_container {r : Registry} (h : r.Consistent) {f g : Family}
    (hf : f ∈ r.families) (hg : g ∈ r.families) : f.base.name ≠ g.containerType := by
  have hdisj := (List.nodup_append.1 h.typeNames.of_append_left).2.2
  exact hdisj _ (List.mem_append_right _ (List.mem_map_of_mem hf)) _ (List.mem_map_of_mem hg)

end Registry

end NodeSchema

import NodeSchema.Proofs.Generated.Lookup
import NodeSchema.Proofs.Names
import NodeSchema.Proofs.Registry.Numbering
import Mathlib.Data.List.ProdSigma

/-!
# The generated units fit together

What is declared in one unit is what the other one defines. The functions of a container are named
by a verb and by the container, so they have names of their own as the containers have, and the
members of each record are told apart by the checks on the fields of the registry.

* `prototypes_declarationsUnit`, `definitions_operationsUnit`: the functions of the units.
* `Registry.Consistent.functionNames`: no two functions of containers share a name.
* `Registry.Consistent.memberNames`: no two members of a record share a name.
* `Registry.UnitsFit`, `unitsFit_of_build`: **the two units of a registry fit together.**
-/

namespace NodeSchema

open C
open scoped List

/-- The functions that an item declares. -/
def C.Item.declared : Item → List FunctionDecl
  | .prototypes fs => fs
  | _ => []

namespace C.SourceUnit

/-- The functions that a unit declares, in their order. -/
def prototypes (u : SourceUnit) : List FunctionDecl :=
  u.items.flatMap Item.declared

/-- The functions that a unit defines, in their order. -/
def definitions (u : SourceUnit) : List FunctionDecl :=
  u.items.filterMap fun
    | .definition f => some f
    | _ => none

end C.SourceUnit

/-! ### Functions -/

/-- The functions of all containers, family by family. -/
def Registry.containerFunctions (r : Registry) : List FunctionDecl :=
  r.families.flatMap fun f => f.containerOps.toList

theorem prototypes_declarationsUnit (r : Registry) (o : Options) :
    (declarationsUnit r o).prototypes = allocateNode :: r.containerFunctions := by
  obtain ⟨ls, hls⟩ := exists_includeItems o
  have hfamilies : ∀ fs : List Family,
      (fs.flatMap Family.declarations).flatMap Item.declared =
        fs.flatMap fun f => f.containerOps.toList := by
    intro fs
    rw [List.flatMap_assoc]
    exact List.flatMap_congr fun f _ => List.append_nil _
  have hnone : ∀ {α : Type} (as : List α), (as.flatMap fun _ => ([] : List FunctionDecl)) = [] :=
    fun as => List.flatMap_eq_nil_iff.2 fun _ _ => rfl
  simp [SourceUnit.prototypes, declarationsUnit, hls, macroItems, Registry.containerFunctions,
    List.flatMap_append, List.flatMap_map, Item.declared, hfamilies, hnone]

theorem definitions_operationsUnit (r : Registry) (o : Options) :
    (operationsUnit r o).definitions = r.containerFunctions := by
  simp [SourceUnit.definitions, operationsUnit, Registry.containerFunctions,
    List.filterMap_flatMap, List.filterMap_map]

/-- How the names of the functions of a container begin. -/
def containerVerbs : List String :=
  ["init", "write", "free"]

theorem map_name_containerOps (f : Family) :
    f.containerOps.toList.map (·.name) = containerVerbs.map (· ++ f.containerType) :=
  rfl

/-- No verb is the beginning of another one. -/
theorem verb_append_inj {v w a b : String} (hv : v ∈ containerVerbs) (hw : w ∈ containerVerbs)
    (h : v ++ a = w ++ b) : v = w ∧ a = b := by
  simp only [containerVerbs, List.mem_cons, List.not_mem_nil, or_false] at hv hw
  rw [← String.toList_inj, String.toList_append, String.toList_append] at h
  rcases hv with rfl | rfl | rfl <;> rcases hw with rfl | rfl | rfl <;>
    simp [String.toList_inj] at h ⊢ <;> exact h

/-- **No two functions of containers share a name.** -/
theorem Registry.Consistent.functionNames {r : Registry} (h : r.Consistent) :
    (r.containerFunctions.map (·.name)).Nodup := by
  have hnames : r.containerFunctions.map (·.name) =
      ((r.families.map (·.containerType)).product containerVerbs).map fun p => p.2 ++ p.1 := by
    simp [containerFunctions, List.product, List.map_flatMap, List.flatMap_map,
      map_name_containerOps, Function.comp_def]
  rw [hnames]
  refine (h.containers.product (by decide)).map_on ?_
  rintro ⟨k, v⟩ hp ⟨l, w⟩ hq heq
  obtain ⟨rfl, rfl⟩ :=
    verb_append_inj (List.mem_product.1 hp).2 (List.mem_product.1 hq).2 heq
  rfl

/-! ### Records and enums -/

/-- The records that are declared for a registry. -/
inductive Registry.HasRecord (r : Registry) : RecordDecl → Prop
  | header : r.HasRecord nodeHeader
  | base {f : Family} (hf : f ∈ r.families) : r.HasRecord f.baseDecl
  | container {f : Family} (hf : f ∈ r.families) : r.HasRecord f.containerDecl
  | variant {f : Family} {v : Record} (hf : f ∈ r.families) (hv : v ∈ f.variants) :
      r.HasRecord (f.variantDecl v)

/-- The enums that are declared for a registry. -/
inductive Registry.HasEnum (r : Registry) : EnumDecl → Prop
  | prelude {e : PreludeEnum} (he : e ∈ r.enums) : r.HasEnum ⟨e.name, e.members⟩
  | discriminators : r.HasEnum r.discriminatorEnum

variable {r : Registry} {o : Options}

theorem mem_records_iff {d : RecordDecl} :
    d ∈ (declarationsUnit r o).records ↔ r.HasRecord d := by
  rw [records_declarationsUnit]
  simp only [List.cons_append, List.mem_cons, List.mem_append, List.mem_flatMap, List.mem_map,
    List.not_mem_nil, or_false, Prod.exists]
  constructor
  · rintro (rfl | ⟨f, hf, rfl | rfl⟩ | ⟨f, v, hfv, rfl⟩)
    · exact .header
    · exact .base hf
    · exact .container hf
    · obtain ⟨hf, hv⟩ := Registry.mem_variants_iff.1 hfv
      exact .variant hf hv
  · rintro (_ | hf | hf | ⟨hf, hv⟩)
    · exact .inl rfl
    · exact .inr (.inl ⟨_, hf, .inl rfl⟩)
    · exact .inr (.inl ⟨_, hf, .inr rfl⟩)
    · exact .inr (.inr ⟨_, _, Registry.mem_variants_iff.2 ⟨hf, hv⟩, rfl⟩)

theorem mem_enums_iff {e : EnumDecl} : e ∈ (declarationsUnit r o).enums ↔ r.HasEnum e := by
  rw [enums_declarationsUnit, List.mem_append, List.mem_map, List.mem_singleton]
  constructor
  · rintro (⟨e, he, rfl⟩ | rfl)
    · exact .prelude he
    · exact .discriminators
  · rintro (he | _)
    · exact .inl ⟨_, he, rfl⟩
    · exact .inr rfl

/-- The members of the container of a family. -/
theorem nodup_containerDecl (f : Family) : (f.containerDecl.members.map (·.name)).Nodup := by
  have hcount : f.containerMember ≠ "count" := containerMember_ne (by decide)
  have hcapacity : f.containerMember ≠ "capacity" := containerMember_ne (by decide)
  simp [Family.containerDecl, hcount.symm, hcapacity.symm]

/-- **No two members of a record share a name.** -/
theorem Registry.Consistent.memberNames (h : r.Consistent) {d : RecordDecl} (hd : r.HasRecord d) :
    (d.members.map (·.name)).Nodup := by
  cases hd with
  | header => decide
  | base hf => exact h.base_fields _ hf
  | container hf => exact nodup_containerDecl _
  | variant hf hv =>
    obtain ⟨hfields, hself⟩ := h.variant_fields _ hf _ hv
    exact List.nodup_cons.2 ⟨hself, hfields⟩

/-! ### The order of the records -/

/-- The records of the variants are declared after all other items that are records. -/
theorem exists_items_declarationsUnit (r : Registry) (o : Options) :
    ∃ before after, (declarationsUnit r o).items = before ++ after ∧
      (∀ d, Item.record d ∈ before → d.kind ≠ .struct) ∧
      (∀ d, Item.record d ∈ after → d.kind = .struct) := by
  obtain ⟨ls, hls⟩ := exists_includeItems o
  refine ⟨_, _, List.append_assoc .., ?_, ?_⟩
  · intro d hd
    simp only [hls, macroItems, List.mem_append, List.mem_cons, List.mem_map, List.mem_flatMap,
      Family.declarations, List.not_mem_nil, reduceCtorEq, Item.record.injEq, or_false, false_or,
      and_false, exists_false] at hd
    rcases hd with rfl | ⟨f, -, rfl | rfl⟩
    · decide
    · exact RecordKind.noConfusion
    · exact RecordKind.noConfusion
  · intro d hd
    simp only [List.mem_append, List.mem_map, List.mem_singleton, reduceCtorEq, or_false,
      Item.record.injEq] at hd
    obtain ⟨_, -, rfl⟩ := hd
    rfl

/-- What is declared with a typedef is declared before what is not. -/
theorem lt_of_getElem?_items {d e : RecordDecl} (hd : d.kind ≠ .struct) (he : e.kind = .struct)
    {i j : ℕ} (hi : (declarationsUnit r o).items[i]? = some (Item.record d))
    (hj : (declarationsUnit r o).items[j]? = some (Item.record e)) : i < j := by
  obtain ⟨before, after, hitems, hbefore, hafter⟩ := exists_items_declarationsUnit r o
  rw [hitems] at hi hj
  have hil : i < before.length := by
    by_contra hle
    rw [List.getElem?_append_right (by omega)] at hi
    exact hd (hafter d (List.mem_of_getElem? hi))
  have hjl : before.length ≤ j := by
    by_contra hlt
    rw [List.getElem?_append_left (by omega)] at hj
    exact hbefore e (List.mem_of_getElem? hj) he
  omega

/-! ### The units -/

/-- **The two units of a registry fit together**, and what is looked up in them is unambiguous. -/
structure Registry.UnitsFit (r : Registry) (o : Options) : Prop where
  /-- No two records and enums share a name. -/
  names : ((declarationsUnit r o).records.map (·.name) ++
    (declarationsUnit r o).enums.map (·.name)).Nodup
  /-- The records and the enums that are found are those of the registry. -/
  record : ∀ name d, (declarationsUnit r o).record? name = some d ↔ r.HasRecord d ∧ d.name = name
  enum : ∀ name e, (declarationsUnit r o).enum? name = some e ↔ r.HasEnum e ∧ e.name = name
  /-- Each base record and each container is declared before each variant. -/
  order : ∀ f ∈ r.families, ∀ d ∈ [f.baseDecl, f.containerDecl],
    ∀ g ∈ r.families, ∀ v ∈ g.variants, ∀ i j : ℕ,
      (declarationsUnit r o).items[i]? = some (Item.record d) →
      (declarationsUnit r o).items[j]? = some (Item.record (g.variantDecl v)) → i < j
  /-- No two functions that are defined share a name. -/
  functions : ((operationsUnit r o).definitions.map (·.name)).Nodup
  /-- What is defined in one unit is declared in the other one, in the same order. -/
  prototypes : (declarationsUnit r o).prototypes = allocateNode :: (operationsUnit r o).definitions
  /-- No two members of a record share a name. -/
  members : ∀ d ∈ (declarationsUnit r o).records, (d.members.map (·.name)).Nodup

theorem Registry.Consistent.unitsFit (h : r.Consistent) (o : Options) : r.UnitsFit o where
  names := (typeNames_perm r o).nodup_iff.2 h.typeNames
  record name d := by rw [record?_eq_some_iff h, mem_records_iff]
  enum name e := by rw [(findsOne_enum? h o).some_iff, mem_enums_iff]
  order f hf d hd g hg v hv i j hi hj := by
    have hkind : d.kind ≠ .struct := by
      simp only [List.mem_cons, List.not_mem_nil, or_false] at hd
      rcases hd with rfl | rfl <;> exact RecordKind.noConfusion
    exact lt_of_getElem?_items hkind rfl hi hj
  functions := by
    rw [definitions_operationsUnit]
    exact h.functionNames
  prototypes := by rw [prototypes_declarationsUnit, definitions_operationsUnit]
  members d hd := h.memberNames (mem_records_iff.1 hd)

/-- **The two units of a registry that is built fit together**, whatever the options are. -/
theorem unitsFit_of_build {s : Source} (h : s.build = .ok r) (o : Options) : r.UnitsFit o :=
  (Source.declares_of_build h).2.unitsFit o

theorem unitsFit_call : callSource.build = .ok callRegistry ∧ callRegistry.UnitsFit {} :=
  ⟨build_callSource, unitsFit_of_build build_callSource {}⟩

end NodeSchema

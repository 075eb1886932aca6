import NodeSchema.Generated.Declarations
import NodeSchema.Proofs.Keys
import NodeSchema.Proofs.Registry.Build
import Mathlib.Data.List.TakeWhile

/-!
# Looking up the generated records and enums

The records and the enums of the declarations unit of a consistent registry have names of their own,
so what is looked up by the name of a record is that record, and no other one.

* `records_declarationsUnit`, `enums_declarationsUnit`: the records and the enums of the unit.
* `typeNames_perm`: the names of both are the names of all types, so no two of them are the same.
* `record?_nodeHeader`, `record?_baseDecl`, `record?_variantDecl`: the records that are found.
* `findsOne_enum?`, `enum?_discriminatorEnum`: the enums that are found.
-/

namespace NodeSchema

open C
open scoped List

/-- The type that is an identifier is named by it. -/
theorem typeName_value {name : String} (h : isIdentifier name) :
    (TypeSpec.value name).typeName = name := by
  have hspace : ∀ c ∈ name.toList.reverse, decide (c ≠ ' ') := by
    intro c hc
    obtain ⟨d, s, hs, hd, hall⟩ := isIdentifier_iff.1 h
    have hword : isWordChar c := by
      rw [List.mem_reverse, hs, List.mem_cons] at hc
      rcases hc with rfl | hc
      · exact isWordChar_of_isWordStart hd
      · exact hall c hc
    rw [decide_eq_true_eq]
    rintro rfl
    exact absurd hword (by decide)
  unfold TypeSpec.typeName TypeSpec.value
  rw [List.takeWhile_eq_self_iff.2 hspace, List.reverse_reverse, String.ofList_toList]

variable {r : Registry} {o : Options}

/-! ### The records and the enums of the unit -/

theorem exists_includeItems (o : Options) :
    ∃ ls : List (List String), includeItems o = ls.map .directives := by
  unfold includeItems
  split
  · exact ⟨[], rfl⟩
  · exact ⟨[_], rfl⟩

/-- The records of the unit are the header, two for each family, and the variants. -/
theorem records_declarationsUnit (r : Registry) (o : Options) :
    (declarationsUnit r o).records =
      nodeHeader :: (r.families.flatMap fun f => [f.baseDecl, f.containerDecl]) ++
        r.variants.map fun (f, v) => f.variantDecl v := by
  obtain ⟨ls, hls⟩ := exists_includeItems o
  simp [SourceUnit.records, declarationsUnit, hls, List.filterMap_append, List.filterMap_map,
    List.filterMap_flatMap, Family.declarations, macroItems]

/-- The enums of the unit are those of the registry, and that of the discriminators. -/
theorem enums_declarationsUnit (r : Registry) (o : Options) :
    (declarationsUnit r o).enums =
      (r.enums.map fun e => ⟨e.name, e.members⟩) ++ [r.discriminatorEnum] := by
  obtain ⟨ls, hls⟩ := exists_includeItems o
  simp [SourceUnit.enums, declarationsUnit, hls, List.filterMap_append, List.filterMap_map,
    List.filterMap_flatMap, Family.declarations, macroItems]

theorem familyNames_perm (fs : List Family) :
    (fs.flatMap fun f => [f.baseDecl, f.containerDecl]).map (·.name) ~
      fs.map (·.base.name) ++ fs.map (·.containerType) := by
  refine .trans (.of_eq ?_) (baseEntries_perm fs)
  simp [baseEntries, List.map_flatMap, Family.baseDecl, Family.containerDecl]

/-- The names of the records and the enums of the unit are the names of all types. -/
theorem typeNames_perm (r : Registry) (o : Options) :
    (declarationsUnit r o).records.map (·.name) ++ (declarationsUnit r o).enums.map (·.name) ~
      r.typeNames := by
  rw [List.perm_iff_count]
  intro name
  have hcount := (familyNames_perm r.families).count_eq name
  simp only [records_declarationsUnit, enums_declarationsUnit, Registry.typeNames,
    Registry.discriminatorEnum, nodeHeader, Family.variantDecl, List.map_append, List.map_cons,
    List.map_map, List.map_nil, Function.comp_def, List.count_append, List.cons_append,
    List.count_cons, List.count_nil] at hcount ⊢
  omega

/-! ### The records that are found -/

/-- No two records of the unit share a name. -/
theorem nodup_recordNames (h : r.Consistent) (o : Options) :
    ((declarationsUnit r o).records.map (·.name)).Nodup :=
  ((typeNames_perm r o).nodup_iff.2 h.typeNames).of_append_left

/-- A record is found under its own name and under no other. -/
theorem record?_eq_some_iff (h : r.Consistent) {name : String} {d : RecordDecl} :
    (declarationsUnit r o).record? name = some d ↔
      d ∈ (declarationsUnit r o).records ∧ d.name = name :=
  find?_key_eq_some_iff (nodup_recordNames h o)

theorem record?_nodeHeader (h : r.Consistent) :
    (declarationsUnit r o).record? nodeHeaderName = some nodeHeader := by
  rw [record?_eq_some_iff h, records_declarationsUnit]
  simp [nodeHeader]

theorem record?_baseDecl (h : r.Consistent) {f : Family} (hf : f ∈ r.families) :
    (declarationsUnit r o).record? f.base.name = some f.baseDecl := by
  rw [record?_eq_some_iff h, records_declarationsUnit]
  refine ⟨List.mem_append_left _ (List.mem_cons_of_mem _ (List.mem_flatMap.2 ⟨f, hf, ?_⟩)), rfl⟩
  exact List.mem_cons_self

theorem record?_variantDecl (h : r.Consistent) {f : Family} (hf : f ∈ r.families) {v : Record}
    (hv : v ∈ f.variants) : (declarationsUnit r o).record? v.name = some (f.variantDecl v) := by
  rw [record?_eq_some_iff h, records_declarationsUnit]
  refine ⟨List.mem_append_right _ (List.mem_map.2 ⟨(f, v), ?_, rfl⟩), rfl⟩
  exact List.mem_flatMap.2 ⟨f, hf, List.mem_map.2 ⟨v, hv, rfl⟩⟩

/-! ### The enums that are found -/

theorem findsOne_enum? (h : r.Consistent) (o : Options) :
    FindsOne (declarationsUnit r o).enums (·.name) (declarationsUnit r o).enum? :=
  findsOne_find? ((typeNames_perm r o).nodup_iff.2 h.typeNames).of_append_right

theorem enum?_discriminatorEnum (h : r.Consistent) (o : Options) :
    (declarationsUnit r o).enum? discriminatorEnumName = some r.discriminatorEnum := by
  rw [(findsOne_enum? h o).some_iff, enums_declarationsUnit]
  exact ⟨List.mem_append_right _ List.mem_cons_self, rfl⟩

end NodeSchema

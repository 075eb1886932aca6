import NodeSchema.Proofs.Generated.Units

/-!
# The identifiers of the declarations unit

The ordinary identifiers that the declarations unit introduces outside of functions are the types
that are declared by a typedef, the enumerators and the functions. Among the identifiers of one kind
no two are the same. Across the kinds, only a name that a schema gives itself can clash: the name of
an enum, of one of its members or of a base record. Building a registry checks such a name against
names of the same kind and against discriminators that are members of enums, and not against the
other kinds. So a registry can be built whose declarations unit declares a name twice.

* `Registry.ClashFree`: no name of one kind is a name of another kind.
* `fileNames_of_build`: **the identifiers are distinct exactly if the registry is free of clashes.**
* `fileNames_clash`: a registry that is not.
-/

namespace NodeSchema

open C
open scoped List

namespace C.SourceUnit

/-- The types that a unit declares by a typedef. Other records have a tag only. -/
def typedefs (u : SourceUnit) : List String :=
  u.enums.map (·.name) ++ (u.records.filter (·.kind ≠ .struct)).map (·.name)

/-- The enumerators that a unit declares. -/
def enumerators (u : SourceUnit) : List String :=
  u.enums.flatMap (·.members)

/-- The functions that a unit declares. -/
def functions (u : SourceUnit) : List String :=
  u.prototypes.map (·.name)

/-- The ordinary identifiers that a unit declares outside of functions. -/
def fileNames (u : SourceUnit) : List String :=
  u.typedefs ++ (u.enumerators ++ u.functions)

end C.SourceUnit

/-! ### The identifiers of a registry -/

namespace Registry

/-- The types that a schema names itself. -/
def givenTypes (r : Registry) : List String :=
  r.enums.map (·.name) ++ r.families.map (·.base.name)

/-- The types whose names follow from others or are fixed. -/
def derivedTypes (r : Registry) : List String :=
  [nodeHeaderName, discriminatorEnumName] ++ r.families.map (·.containerType)

/-- The enumerators of all variants. -/
def tags (r : Registry) : List String :=
  r.discriminators.map (·.name)

/-- The functions that are declared for a registry. -/
def functions (r : Registry) : List String :=
  allocateNode.name :: r.containerFunctions.map (·.name)

/-- **A registry without clashes.** No name is given to a type, an enumerator or a function and to
one of another kind. -/
structure ClashFree (r : Registry) : Prop where
  types_enumerators : ∀ name ∈ r.givenTypes ++ r.derivedTypes, name ∉ r.enumerators
  types_tags : ∀ name ∈ r.givenTypes, name ∉ r.tags
  types_functions : ∀ name ∈ r.givenTypes, name ∉ r.functions
  enumerators_functions : ∀ name ∈ r.enumerators, name ∉ r.functions

end Registry

variable {r : Registry} {o : Options}

theorem enumerators_declarationsUnit (r : Registry) (o : Options) :
    (declarationsUnit r o).enumerators = r.enumerators ++ r.tags := by
  simp [SourceUnit.enumerators, enums_declarationsUnit, Registry.enumerators, Registry.tags,
    Registry.discriminatorEnum, List.flatMap_append, List.flatMap_map]

theorem functions_declarationsUnit (r : Registry) (o : Options) :
    (declarationsUnit r o).functions = r.functions := by
  rw [SourceUnit.functions, prototypes_declarationsUnit, List.map_cons, Registry.functions]

/-- The variants are declared without a typedef. -/
theorem not_typedef_variantDecl (r : Registry) :
    ∀ d ∈ r.variants.map fun (f, v) => f.variantDecl v, ¬ decide (d.kind ≠ .struct) := by
  intro d hd
  obtain ⟨⟨f, v⟩, -, rfl⟩ := List.mem_map.1 hd
  exact Bool.false_ne_true

theorem filter_records_declarationsUnit (r : Registry) (o : Options) :
    (declarationsUnit r o).records.filter (·.kind ≠ .struct) =
      nodeHeader :: r.families.flatMap fun f => [f.baseDecl, f.containerDecl] := by
  have hbases : ∀ d ∈ r.families.flatMap fun f => [f.baseDecl, f.containerDecl],
      decide (d.kind ≠ .struct) := by
    intro d hd
    obtain ⟨f, -, hd⟩ := List.mem_flatMap.1 hd
    rcases List.mem_pair.1 hd with rfl | rfl
    · rfl
    · rfl
  rw [records_declarationsUnit, List.filter_append,
    List.filter_eq_nil_iff.2 (not_typedef_variantDecl r), List.append_nil,
    List.filter_cons_of_pos (by decide), List.filter_eq_self.2 hbases]

/-- The types that are declared by a typedef are all of them other than the variants. -/
theorem typedefs_perm (r : Registry) (o : Options) :
    (declarationsUnit r o).typedefs ~ r.givenTypes ++ r.derivedTypes := by
  rw [List.perm_iff_count]
  intro name
  have hcount := (familyNames_perm r.families).count_eq name
  simp only [SourceUnit.typedefs, enums_declarationsUnit, filter_records_declarationsUnit,
    Registry.givenTypes, Registry.derivedTypes, Registry.discriminatorEnum, nodeHeader,
    List.map_append, List.map_cons, List.map_map, List.map_nil, Function.comp_def,
    List.count_append, List.count_cons, List.count_nil] at hcount ⊢
  omega

theorem mem_typedefs_iff {name : String} :
    name ∈ (declarationsUnit r o).typedefs ↔ name ∈ r.givenTypes ++ r.derivedTypes :=
  (typedefs_perm r o).mem_iff

/-! ### Identifiers of one kind -/

theorem types_perm (r : Registry) :
    r.givenTypes ++ r.derivedTypes ++ r.variants.map (·.2.name) ~ r.typeNames := by
  rw [List.perm_iff_count]
  intro name
  simp only [Registry.givenTypes, Registry.derivedTypes, Registry.typeNames, List.count_append]
  omega

/-- No two types that are declared by a typedef share a name. -/
theorem nodup_typedefs (h : r.Consistent) (o : Options) :
    (declarationsUnit r o).typedefs.Nodup := by
  have htypes := (types_perm r).nodup_iff.2 h.typeNames
  exact (typedefs_perm r o).nodup_iff.2 htypes.of_append_left

/-- No two enumerators share a name. -/
theorem nodup_enumerators (h : r.Consistent) (o : Options) :
    (declarationsUnit r o).enumerators.Nodup := by
  rw [enumerators_declarationsUnit]
  refine List.nodup_append'.2 ⟨h.enumerators, h.tags, ?_⟩
  intro name hmember htag
  obtain ⟨d, hd, rfl⟩ := List.mem_map.1 htag
  exact h.tags_enumerators d hd hmember

/-- The functions of containers are named by a verb and a container. -/
theorem exists_of_mem_containerFunctions {name : String}
    (h : name ∈ r.containerFunctions.map (·.name)) :
    ∃ verb ∈ containerVerbs, ∃ f ∈ r.families, name = verb ++ f.containerType := by
  obtain ⟨d, hd, rfl⟩ := List.mem_map.1 h
  obtain ⟨f, hf, hd⟩ := List.mem_flatMap.1 hd
  have hname : d.name ∈ f.containerOps.toList.map (·.name) := List.mem_map_of_mem hd
  rw [map_name_containerOps] at hname
  obtain ⟨verb, hverb, hname⟩ := List.mem_map.1 hname
  exact ⟨verb, hverb, f, hf, hname.symm⟩

/-- No two functions share a name. -/
theorem nodup_functions (h : r.Consistent) (o : Options) :
    (declarationsUnit r o).functions.Nodup := by
  rw [functions_declarationsUnit]
  refine List.nodup_cons.2 ⟨?_, h.functionNames⟩
  intro hmem
  obtain ⟨verb, hverb, f, -, hname⟩ := exists_of_mem_containerFunctions hmem
  -- no verb begins like `allocateNode`
  have hhead := congrArg (fun name => name.toList.head?) hname
  simp only [containerVerbs, List.mem_cons, List.not_mem_nil, or_false] at hverb
  rcases hverb with rfl | rfl | rfl <;> simp [allocateNode, String.toList_append] at hhead

/-! ### Identifiers of different kinds -/

/-- A derived name of a type has a small letter, and it does not start with one. -/
theorem lower_of_mem_derivedTypes (h : r.Consistent) {name : String}
    (hname : name ∈ r.derivedTypes) : hasLower name ∧ startsLower name = false := by
  rw [Registry.derivedTypes, List.mem_append] at hname
  rcases hname with hname | hname
  · rcases List.mem_pair.1 hname with rfl | rfl
    · decide
    · decide
  · obtain ⟨f, hf, rfl⟩ := List.mem_map.1 hname
    exact ⟨hasLower_containerType f.group, startsLower_containerType (h.group_names f hf)⟩

theorem hasLower_of_mem_tags (h : r.discriminators = tagsFrom 0 r.families) {name : String}
    (hname : name ∈ r.tags) : hasLower name = false := by
  rw [Registry.tags, h, tagsFrom_name] at hname
  obtain ⟨v, -, rfl⟩ := List.mem_map.1 hname
  exact hasLower_discriminatorName v.name

/-- A function starts with a small letter. -/
theorem startsLower_of_mem_functions {name : String} (hname : name ∈ r.functions) :
    startsLower name := by
  rcases List.mem_cons.1 hname with rfl | hname
  · decide
  · obtain ⟨verb, hverb, f, -, rfl⟩ := exists_of_mem_containerFunctions hname
    have hlower : ∀ verb ∈ containerVerbs, verb ≠ "" ∧ startsLower verb := by decide
    rw [startsLower_append (hlower verb hverb).1]
    exact (hlower verb hverb).2

variable {s : Source}

/-- No derived name of a type is an enumerator of a variant. -/
theorem not_mem_tags (hd : s.Declares r) (h : r.Consistent) {name : String}
    (hname : name ∈ r.derivedTypes) : name ∉ r.tags := by
  intro htag
  have hlower := (lower_of_mem_derivedTypes h hname).1
  rw [hasLower_of_mem_tags hd.discriminators htag] at hlower
  exact Bool.false_ne_true hlower

/-- No derived name of a type is a function. -/
theorem not_mem_functions_of_mem_derivedTypes (h : r.Consistent) {name : String}
    (hname : name ∈ r.derivedTypes) : name ∉ r.functions := by
  intro hfunction
  have hlower := startsLower_of_mem_functions hfunction
  rw [(lower_of_mem_derivedTypes h hname).2] at hlower
  exact Bool.false_ne_true hlower

/-- No enumerator of a variant is a function. -/
theorem not_mem_functions_of_mem_tags (hd : s.Declares r) {name : String} (hname : name ∈ r.tags) :
    name ∉ r.functions := by
  intro hfunction
  have hlower := hasLower_of_startsLower (startsLower_of_mem_functions hfunction)
  rw [hasLower_of_mem_tags hd.discriminators hname] at hlower
  exact Bool.false_ne_true hlower

/-- **The kinds are apart exactly if the registry is free of clashes.** -/
theorem disjoint_iff_clashFree (hd : s.Declares r) (h : r.Consistent) (o : Options) :
    (declarationsUnit r o).typedefs.Disjoint
        ((declarationsUnit r o).enumerators ++ (declarationsUnit r o).functions) ∧
      (declarationsUnit r o).enumerators.Disjoint (declarationsUnit r o).functions ↔
      r.ClashFree := by
  rw [enumerators_declarationsUnit, functions_declarationsUnit]
  simp only [List.disjoint_left, mem_typedefs_iff, List.mem_append, not_or]
  constructor
  · rintro ⟨htypes, henumerators⟩
    exact
      { types_enumerators := fun name hname => (htypes (List.mem_append.1 hname)).1.1
        types_tags := fun name hname => (htypes (.inl hname)).1.2
        types_functions := fun name hname => (htypes (.inl hname)).2
        enumerators_functions := fun name hname => henumerators (.inl hname) }
  · intro hfree
    refine ⟨fun name hname => ⟨⟨?_, ?_⟩, ?_⟩, fun name hname => ?_⟩
    · exact hfree.types_enumerators name (List.mem_append.2 hname)
    · rcases hname with hname | hname
      · exact hfree.types_tags name hname
      · exact not_mem_tags hd h hname
    · rcases hname with hname | hname
      · exact hfree.types_functions name hname
      · exact not_mem_functions_of_mem_derivedTypes h hname
    · rcases hname with hname | hname
      · exact hfree.enumerators_functions name hname
      · exact not_mem_functions_of_mem_tags hd hname

/-- **The identifiers of the declarations unit.** Among those of one kind no two are the same, and
all of them are distinct exactly if the registry is free of clashes. -/
theorem fileNames_of_build (hbuild : s.build = .ok r) (o : Options) :
    (declarationsUnit r o).typedefs.Nodup ∧ (declarationsUnit r o).enumerators.Nodup ∧
      (declarationsUnit r o).functions.Nodup ∧
      ((declarationsUnit r o).fileNames.Nodup ↔ r.ClashFree) := by
  obtain ⟨hd, h⟩ := Source.declares_of_build hbuild
  have htypedefs := nodup_typedefs h o
  have henumerators := nodup_enumerators h o
  have hfunctions := nodup_functions h o
  refine ⟨htypedefs, henumerators, hfunctions, ?_⟩
  rw [← disjoint_iff_clashFree hd h o, SourceUnit.fileNames, List.nodup_append',
    List.nodup_append']
  constructor
  · rintro ⟨-, ⟨-, -, hright⟩, hleft⟩
    exact ⟨hleft, hright⟩
  · rintro ⟨hleft, hright⟩
    exact ⟨htypedefs, ⟨henumerators, hfunctions, hright⟩, hleft⟩

theorem fileNames_call :
    callSource.build = .ok callRegistry ∧ (declarationsUnit callRegistry {}).fileNames.Nodup := by
  have hfree : callRegistry.ClashFree := ⟨by decide, by decide, by decide, by decide⟩
  obtain ⟨-, -, -, hiff⟩ := fileNames_of_build build_callSource {}
  exact ⟨build_callSource, hiff.2 hfree⟩

/-! ### A clash -/

/-- An enum one of whose members is called like a base record. -/
def clashSource : Source where
  enums := [⟨"Color", ["Expr"], ⟨"clash.schema", 1, 1⟩⟩]
  families :=
    [⟨"expr", [⟨"Expr : Node self", ⟨"clash.schema", 3, 1⟩⟩], ⟨"clash.schema", 2, 1⟩⟩]

/-- Its registry. -/
def clashRegistry : Registry where
  enums := [⟨"Color", ["Expr"]⟩]
  families :=
    [⟨"expr", ⟨"Expr", [⟨.value nodeHeaderName, headerMember⟩], ⟨"clash.schema", 3, 1⟩⟩, []⟩]
  discriminators := []

/-- The member of an enum and a type are both called `Expr`, and the registry is built. -/
theorem fileNames_clash :
    clashSource.build = .ok clashRegistry ∧
      "Expr" ∈ (declarationsUnit clashRegistry {}).typedefs ∧
      "Expr" ∈ (declarationsUnit clashRegistry {}).enumerators ∧
      ¬ (declarationsUnit clashRegistry {}).fileNames.Nodup := by
  decide +kernel

end NodeSchema

import NodeSchema.Proofs.C.Lines
import NodeSchema.Proofs.Generated.Lookup
import NodeSchema.Proofs.Names
import NodeSchema.Proofs.Registry.Entry
import NodeSchema.Proofs.Registry.Numbering

/-!
# The declarations say all of a registry

Every block of the declarations unit of a registry can be read back, so the text determines the
enums and the records of the unit (`eq_of_declarations`). The enums are those of the registry. The
typedefs are the base records and the containers, family by family, and the group of a family is in
the name of the buffer of its container. The other records are the variants, and the first member of
a variant names the base record of its family. No two families share a base record, so the variants
of a family are found by it.

* `wellFormed_declaredItems`: the blocks of a registry that was built can be read.
* `map_relocate_eq`: the families, from the records of the unit.
* `unplaced_eq_of_declarations`: **registries with the same declarations are equal up to
  locations.**
-/

namespace NodeSchema

open C Text

/-! ### The items that depend on the registry -/

theorem wellFormed_of_isIdentifier {type name : String} (ht : isIdentifier type)
    (hn : isIdentifier name) (depth : ℕ) : Field.WellFormed ⟨⟨type, depth⟩, name⟩ where
  type := by
    have hword : isWord type.toList := ht
    exact ⟨[type.toList], by simp, by simpa using hword, by simp⟩
  name := hn

/-- The items of the declarations unit without the include guard and the inclusions. -/
def Registry.declaredItems (r : Registry) : List Item :=
  r.enums.map (fun e => .enum ⟨e.name, e.members⟩) ++ macroItems ++
    [.enum r.discriminatorEnum, .record nodeHeader, .prototypes [allocateNode]] ++
    r.families.flatMap Family.declarations ++
    r.variants.map fun (f, v) => .record (f.variantDecl v)

theorem items_declarationsUnit (r : Registry) (o : Options) :
    (declarationsUnit r o).items =
      ([.directives ["#ifndef " ++ o.guard, "#define " ++ o.guard]] ++ includeItems o) ++
        r.declaredItems ++ [.directives ["#endif // " ++ o.guard]] := by
  simp [declarationsUnit, Registry.declaredItems]

theorem wellFormed_nodeHeader : nodeHeader.WellFormed where
  name := by decide
  member := by
    have hlink : readField .unknown "struct Node* next" =
        .ok ⟨.pointer ("struct " ++ nodeHeaderName), "next"⟩ := by
      decide +kernel
    simp only [nodeHeader, List.forall_mem_cons]
    exact ⟨wellFormed_of_isIdentifier (by decide) (by decide) 0,
      wellFormed_of_isIdentifier (by decide) (by decide) 0,
      wellFormed_of_isIdentifier (by decide) (by decide) 0, wellFormed_of_readField hlink,
      List.forall_mem_nil _⟩

theorem wellFormed_allocateNode : allocateNode.WellFormed where
  result := wellFormed_of_isIdentifier (by decide) (by decide) 1
  param := by
    simp only [allocateNode, List.forall_mem_cons]
    exact ⟨wellFormed_of_isIdentifier (by decide) (by decide) 0,
      wellFormed_of_isIdentifier (by decide) (by decide) 0, List.forall_mem_nil _⟩

theorem wellFormed_macroItems : ∀ i ∈ macroItems, i.WellFormed := by
  simp only [macroItems, List.forall_mem_cons]
  exact ⟨⟨by simp, by decide +kernel⟩, ⟨by simp, by decide +kernel⟩, List.forall_mem_nil _⟩

namespace Registry.WellFormed

variable {r : Registry} {f : Family} (h : r.WellFormed)
include h

theorem wellFormed_discriminatorEnum : r.discriminatorEnum.WellFormed where
  name := (by decide : isIdentifier discriminatorEnumName)
  member := by
    have hnames : r.discriminatorEnum.members =
        (r.families.flatMap (·.variants)).map fun v => discriminatorName v.name := by
      rw [Registry.discriminatorEnum, h.discriminators, tagsFrom_name]
    rw [hnames, List.forall_mem_map]
    intro v hv
    obtain ⟨f, hf, hv⟩ := List.mem_flatMap.1 hv
    exact isIdentifier_discriminatorName (h.record f hf v (List.mem_cons_of_mem _ hv)).name

variable (hf : f ∈ r.families)
include hf

theorem wellFormed_baseDecl : f.baseDecl.WellFormed where
  name := (h.record f hf f.base List.mem_cons_self).name
  member := (h.record f hf f.base List.mem_cons_self).field

theorem wellFormed_containerDecl : f.containerDecl.WellFormed where
  name := isIdentifier_containerType (h.consistent.group_names f hf)
  member := by
    have hbase := (h.record f hf f.base List.mem_cons_self).name
    have hmember : isIdentifier f.containerMember :=
      isIdentifier_append (h.consistent.group_names f hf) (List.all_eq_true.1 rfl)
    simp only [Family.containerDecl, List.forall_mem_cons]
    exact ⟨wellFormed_of_isIdentifier (by decide) (by decide) 0,
      wellFormed_of_isIdentifier (by decide) (by decide) 0,
      wellFormed_of_isIdentifier hbase hmember 2, List.forall_mem_nil _⟩

theorem wellFormed_containerOps : ∀ op ∈ f.containerOps.toList, op.WellFormed := by
  have hgroup := h.consistent.group_names f hf
  have htype : isIdentifier f.containerType := isIdentifier_containerType hgroup
  have harray : Field.WellFormed ⟨.pointer f.containerType, f.arrayName⟩ :=
    wellFormed_of_isIdentifier htype (isIdentifier_append hgroup (List.all_eq_true.1 rfl)) 1
  have helement : Field.WellFormed ⟨f.elementType, f.group⟩ :=
    wellFormed_of_isIdentifier (h.record f hf f.base List.mem_cons_self).name hgroup 1
  have hresult {verb : String} (hverb : isIdentifier verb) :
      Field.WellFormed ⟨.value "void", verb ++ f.containerType⟩ :=
    wellFormed_of_isIdentifier (by decide)
      (isIdentifier_append hverb (isWordChar_of_isWord htype)) 0
  simp only [ContainerOps.toList, List.forall_mem_cons]
  refine ⟨⟨hresult (by decide), ?_⟩, ⟨hresult (by decide), ?_⟩, ⟨hresult (by decide), ?_⟩,
    List.forall_mem_nil _⟩
  · simpa [Family.containerOps, Code.Function.toDecl] using harray
  · simpa [Family.containerOps, Code.Function.toDecl] using ⟨harray, helement⟩
  · simpa [Family.containerOps, Code.Function.toDecl] using harray

theorem wellFormed_variantDecl {v : Record} (hv : v ∈ f.variants) :
    (f.variantDecl v).WellFormed where
  name := (h.record f hf v (List.mem_cons_of_mem _ hv)).name
  member := by
    have hbase := (h.record f hf f.base List.mem_cons_self).name
    exact List.forall_mem_cons.2 ⟨wellFormed_of_isIdentifier hbase (by decide) 0,
      (h.record f hf v (List.mem_cons_of_mem _ hv)).field⟩

omit hf in
/-- **The items of a registry that was built can be read.** -/
theorem wellFormed_declaredItems : ∀ i ∈ r.declaredItems, i.WellFormed := by
  intro i hi
  simp only [Registry.declaredItems, List.mem_append, List.mem_map, List.mem_flatMap, List.mem_cons,
    List.not_mem_nil, or_false] at hi
  rcases hi with ((((⟨e, he, rfl⟩ | hi) | rfl | rfl | rfl) | ⟨f, hf, hi⟩) | ⟨⟨f, v⟩, hv, rfl⟩)
  · exact ⟨(h.consistent.enum_names e he).1, (h.consistent.enum_names e he).2⟩
  · exact wellFormed_macroItems i hi
  · exact h.wellFormed_discriminatorEnum
  · exact wellFormed_nodeHeader
  · exact ⟨by simp, by simpa using wellFormed_allocateNode⟩
  · simp only [Family.declarations, List.mem_cons, List.not_mem_nil, or_false] at hi
    rcases hi with rfl | rfl | rfl
    · exact h.wellFormed_baseDecl hf
    · exact h.wellFormed_containerDecl hf
    · exact ⟨by simp [ContainerOps.toList], h.wellFormed_containerOps hf⟩
  · obtain ⟨hf, hv⟩ := Registry.mem_variants_iff.1 hv
    exact h.wellFormed_variantDecl hf hv

end Registry.WellFormed

/-! ### The records and the enums of the text -/

/-- **The declarations determine the enums and the records of their unit.** -/
theorem eq_of_declarations {r r' : Registry} (h : r.WellFormed) (h' : r'.WellFormed) {o : Options}
    (htext : (r.generate o).declarations = (r'.generate o).declarations) :
    (declarationsUnit r o).records = (declarationsUnit r' o).records ∧
      (declarationsUnit r o).enums = (declarationsUnit r' o).enums := by
  have hne (r : Registry) : r.declaredItems ≠ [] := by simp [Registry.declaredItems, macroItems]
  have hunit (r : Registry) : declarationsUnit r o =
      ⟨([.directives ["#ifndef " ++ o.guard, "#define " ++ o.guard]] ++ includeItems o) ++
        r.declaredItems ++ [.directives ["#endif // " ++ o.guard]]⟩ := by
    rw [← items_declarationsUnit]
  have htext : (declarationsUnit r o).render = (declarationsUnit r' o).render := htext
  rw [hunit, hunit] at htext ⊢
  exact SourceUnit.eq_of_render (by simp) (by simp) (hne r) (hne r') h.wellFormed_declaredItems
    h'.wellFormed_declaredItems htext

/-! ### The families of the records -/

/-- Two lists that are told apart by a test are found again in what they make up together. -/
theorem append_inj_of_filter {α : Type} {p : α → Bool} {as as' bs bs' : List α}
    (ha : ∀ a ∈ as, p a) (ha' : ∀ a ∈ as', p a) (hb : ∀ b ∈ bs, ¬ p b) (hb' : ∀ b ∈ bs', ¬ p b)
    (h : as ++ bs = as' ++ bs') : as = as' ∧ bs = bs' := by
  have hfilter := congrArg (List.filter p) h
  rw [List.filter_append, List.filter_append, List.filter_eq_self.2 ha, List.filter_eq_self.2 ha',
    List.filter_eq_nil_iff.2 hb, List.filter_eq_nil_iff.2 hb', List.append_nil, List.append_nil]
    at hfilter
  subst hfilter
  exact ⟨rfl, List.append_cancel_left h⟩

/-- The group and the base record of a family, without its location. -/
def Family.front (f : Family) : String × Record :=
  (f.group, f.base.relocate fun _ => .unknown)

/-- The records of variants, family by family. -/
def variantDecls (fs : List Family) : List RecordDecl :=
  fs.flatMap fun f => f.variants.map f.variantDecl

theorem map_variantDecl (r : Registry) :
    (r.variants.map fun (f, v) => f.variantDecl v) = variantDecls r.families := by
  simp [variantDecls, Registry.variants, List.map_flatMap, Function.comp_def]

/-- The base record and the container say all of a family but its variants. -/
theorem front_eq {f f' : Family} (hbase : f.baseDecl = f'.baseDecl)
    (hcontainer : f.containerDecl = f'.containerDecl) : f.front = f'.front := by
  obtain ⟨group, ⟨name, fields, loc⟩, variants⟩ := f
  obtain ⟨group', ⟨name', fields', loc'⟩, variants'⟩ := f'
  cases hbase
  have hmember : group ++ "s" = group' ++ "s" := by
    simpa [Family.containerDecl, Family.containerMember, containerMember] using
      congrArg RecordDecl.members hcontainer
  rw [← String.toList_inj, String.toList_append, String.toList_append,
    List.append_cancel_right_eq, String.toList_inj] at hmember
  rw [hmember]
  rfl

theorem map_front_eq {fs fs' : List Family}
    (h : (fs.flatMap fun f => [f.baseDecl, f.containerDecl]) =
      fs'.flatMap fun f => [f.baseDecl, f.containerDecl]) :
    fs.map Family.front = fs'.map Family.front := by
  induction fs generalizing fs' with
  | nil =>
    cases fs' with
    | nil => rfl
    | cons f' fs' => cases h
  | cons f fs ih =>
    cases fs' with
    | nil => cases h
    | cons f' fs' =>
      obtain ⟨hbase, h⟩ := List.cons_eq_cons.1 h
      obtain ⟨hcontainer, h⟩ := List.cons_eq_cons.1 h
      rw [List.map_cons, List.map_cons, front_eq hbase hcontainer, ih h]

/-- Whether the record is one of a variant that extends the base record of this name. -/
def embedsBase (base : String) (d : RecordDecl) : Bool :=
  d.members.head? = some ⟨.value base, headerMember⟩

theorem not_embedsBase {fs : List Family} {base : String} (h : base ∉ fs.map (·.base.name)) :
    ∀ d ∈ variantDecls fs, ¬ embedsBase base d := by
  intro d hd hembeds
  obtain ⟨f, hf, hd⟩ := List.mem_flatMap.1 hd
  obtain ⟨v, -, rfl⟩ := List.mem_map.1 hd
  have hbase : f.base.name = base := by
    simpa [embedsBase, Family.variantDecl, TypeSpec.value] using hembeds
  exact h (List.mem_map.2 ⟨f, hf, hbase⟩)

/-- The records of the variants of a family are those that extend its base record. -/
theorem variants_eq {f f' : Family}
    (h : f.variants.map f.variantDecl = f'.variants.map f'.variantDecl) :
    f.variants.map (Record.relocate fun _ => .unknown) =
      f'.variants.map (Record.relocate fun _ => .unknown) := by
  have hrecords := congrArg (List.map fun d => (⟨d.name, d.members.tail, .unknown⟩ : Record)) h
  rw [List.map_map, List.map_map] at hrecords
  exact hrecords

/-- **Families with distinct base records are told by these and by the records of all variants.** -/
theorem map_relocate_eq {fs fs' : List Family} (hfront : fs.map Family.front = fs'.map Family.front)
    (hnodup : (fs.map (·.base.name)).Nodup) (hvariants : variantDecls fs = variantDecls fs') :
    fs.map (Family.relocate fun _ => .unknown) = fs'.map (Family.relocate fun _ => .unknown) := by
  induction fs generalizing fs' with
  | nil => rw [List.map_eq_nil_iff.1 hfront.symm]
  | cons f fs ih =>
    obtain ⟨f', fs', rfl, hf, hfs⟩ := List.map_eq_cons_iff.1 hfront.symm
    obtain ⟨hfresh, hnodup⟩ := List.nodup_cons.1 hnodup
    obtain ⟨hgroup, hbase⟩ : f'.group = f.group ∧
        f'.base.relocate (fun _ => .unknown) = f.base.relocate fun _ => .unknown :=
      Prod.mk.inj hf
    have hname : f'.base.name = f.base.name := congrArg (fun p : String × Record => p.2.name) hf
    have hfresh' : f.base.name ∉ fs'.map (·.base.name) := by
      have hnames := congrArg (List.map fun p => p.2.name) hfs
      rw [List.map_map, List.map_map] at hnames
      exact fun hmem => hfresh (hnames ▸ hmem)
    -- the variants of the first family are the records that embed its base record
    obtain ⟨hvs, hrest⟩ := append_inj_of_filter (p := embedsBase f.base.name)
      (List.forall_mem_map.2 fun v _ => decide_eq_true rfl)
      (List.forall_mem_map.2 fun v _ => decide_eq_true (by rw [← hname]; rfl))
      (not_embedsBase hfresh) (not_embedsBase hfresh') hvariants
    rw [List.map_cons, List.map_cons, ih hfs.symm hnodup hrest, Family.relocate, Family.relocate,
      hgroup, hbase, variants_eq hvs]

/-- **Registries with the same declarations are equal up to locations.** -/
theorem unplaced_eq_of_declarations {r r' : Registry} (h : r.WellFormed) (h' : r'.WellFormed)
    {o : Options} (htext : (r.generate o).declarations = (r'.generate o).declarations) :
    r.unplaced = r'.unplaced := by
  obtain ⟨hrecords, henums⟩ := eq_of_declarations h h' htext
  have henums : r.enums = r'.enums := by
    rw [enums_declarationsUnit, enums_declarationsUnit] at henums
    obtain ⟨henums, -⟩ := List.append_inj' henums rfl
    refine (List.map_inj_right fun e e' he => ?_).1 henums
    cases e
    cases e'
    cases he
    rfl
  have hfamilies : r.families.map (Family.relocate fun _ => .unknown) =
      r'.families.map (Family.relocate fun _ => .unknown) := by
    have htypedef (r : Registry) : ∀ d ∈ r.families.flatMap fun f => [f.baseDecl, f.containerDecl],
        decide (d.kind = .typedef) := by
      intro d hd
      obtain ⟨f, -, hd⟩ := List.mem_flatMap.1 hd
      rcases List.mem_pair.1 hd with rfl | rfl
      · rfl
      · rfl
    have hstruct (r : Registry) : ∀ d ∈ variantDecls r.families, ¬ decide (d.kind = .typedef) := by
      intro d hd
      obtain ⟨f, -, hd⟩ := List.mem_flatMap.1 hd
      obtain ⟨v, -, rfl⟩ := List.mem_map.1 hd
      have hkind : (f.variantDecl v).kind = .struct := rfl
      rw [hkind]
      decide
    rw [records_declarationsUnit, records_declarationsUnit, map_variantDecl, map_variantDecl,
      List.cons_append, List.cons_append] at hrecords
    obtain ⟨-, hrecords⟩ := List.cons_eq_cons.1 hrecords
    obtain ⟨hfronts, hvariants⟩ :=
      append_inj_of_filter (htypedef r) (htypedef r') (hstruct r) (hstruct r') hrecords
    exact map_relocate_eq (map_front_eq hfronts) h.consistent.bases hvariants
  have htags : r.discriminators = r'.discriminators := by
    rw [h.discriminators, h'.discriminators, ← tagsFrom_relocate (fun _ => .unknown) 0 r.families,
      hfamilies, tagsFrom_relocate]
  rw [Registry.unplaced, Registry.unplaced, Registry.relocate, Registry.relocate, henums, hfamilies,
    htags]

/-- **Emission loses nothing.** -/
theorem generate_injective (o : Options) {s s' : Source} {r r' : Registry} (h : s.build = .ok r)
    (h' : s'.build = .ok r') (htext : (r.generate o).declarations = (r'.generate o).declarations) :
    r.unplaced = r'.unplaced :=
  unplaced_eq_of_declarations (Registry.wellFormed_of_build h) (Registry.wellFormed_of_build h')
    htext

/-- Names and calls, declared in one place. -/
def callSourceAt (loc : Location) : Source :=
  callSource.relocate fun _ => loc

theorem generate_injective_call :
    callRegistry.unplaced = (callRegistry.relocate fun _ => ⟨"ast.schema", 1, 1⟩).unplaced := by
  have hbuild : (callSourceAt ⟨"ast.schema", 1, 1⟩).build =
      .ok (callRegistry.relocate fun _ => ⟨"ast.schema", 1, 1⟩) := by
    rw [callSourceAt, Source.build_relocate, build_callSource]
    rfl
  exact generate_injective {} build_callSource hbuild (by decide +kernel)

end NodeSchema

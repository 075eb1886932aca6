import NodeSchema.Proofs.Registry.Passes

/-!
# Building decides consistency

The names that are taken after the three passes are the names of all types, in another order, so
they are distinct exactly if the names of the types are.

* `Source.declares_of_build`, `Source.build_of_declares`: the two directions.
* `Source.build_eq_ok_iff`: **a registry is built exactly if the source declares it and it is
  consistent.**
-/

namespace NodeSchema

open Names
open scoped List

/-! ### Families -/

/-- An entry that can be read has an identifier for a name, and its fields are read from what stands
between the commas behind its colon. -/
theorem pieces_of_readEntry {loc : Location} {entry : String} {v : Record}
    (h : readEntry loc entry = .ok v) :
    isIdentifier v.name ∧ ∃ front rest, Text.cut ':' entry.toList = some (front, rest) ∧
      ∀ f ∈ v.fields, ∃ piece ∈ rest.splitOn ',', readField loc (String.ofList piece) = .ok f := by
  unfold readEntry at h
  split at h
  · cases h
  · rename_i front rest hcut
    split at h
    · cases h
    · obtain ⟨_, hid, h⟩ := bind_eq_ok.1 h
      obtain ⟨fields, hfields, h⟩ := bind_eq_ok.1 h
      cases h
      refine ⟨expectIdentifier_ok_iff.1 hid, front, rest, hcut, fun f hf => ?_⟩
      unfold readFields at hfields
      split at hfields
      · cases hfields
        cases hf
      · rw [String.toList_ofList] at hfields
        exact exists_of_forall₂ (mapM_eq_ok.1 hfields).flip hf

/-- The base record of the family and its group pass the checks of the second pass. -/
structure Family.BaseOK (f : Family) : Prop where
  group_name : isIdentifier f.group
  header : ∃ rest, f.base.fields = ⟨.value nodeHeaderName, headerMember⟩ :: rest
  fields : (f.base.fields.map (·.name)).Nodup

theorem FamilySource.reads_iff {s : FamilySource} {f : Family} :
    s.Reads f ↔ s.Declares f ∧ f.BaseOK := by
  constructor
  · rintro ⟨⟨hid, hg, ⟨e, es, he, hb⟩, hh, hf, -⟩, hvs⟩
    rw [he] at hvs
    have hg : f.group = s.group := hg
    exact ⟨⟨hg, e, es, he, hb, hvs⟩, hg ▸ hid, hh, hf⟩
  · rintro ⟨⟨hg, e, es, he, hb, hvs⟩, hid, hh, hf⟩
    refine ⟨⟨hg ▸ hid, hg, ⟨e, es, he, hb⟩, hh, hf, rfl⟩, ?_⟩
    rw [he]
    exact hvs

theorem forall₂_reads_iff {ss : List FamilySource} {fs : List Family} :
    List.Forall₂ FamilySource.Reads ss fs ↔
      List.Forall₂ FamilySource.Declares ss fs ∧ ∀ f ∈ fs, f.BaseOK := by
  rw [← forall₂_and_right_iff]
  constructor
  · exact fun h => h.imp fun _ _ => FamilySource.reads_iff.1
  · exact fun h => h.imp fun _ _ => FamilySource.reads_iff.2

theorem forall₂_declaresBase {ss : List FamilySource} {fs : List Family}
    (h : List.Forall₂ FamilySource.Reads ss fs) :
    List.Forall₂ FamilySource.DeclaresBase ss (fs.map Family.bare) :=
  List.forall₂_map_right_iff.2 (h.imp fun _ _ => And.left)

/-! ### The names that are taken -/

/-- The names of enums. -/
def enumEntries (es : List EnumSource) : Names :=
  es.map fun e => (e.name, .preludeEnum)

theorem baseEntries_bare (fs : List Family) :
    baseEntries (fs.map Family.bare) = baseEntries fs := by
  unfold baseEntries
  rw [List.flatMap_map]
  rfl

theorem baseEntries_perm (fs : List Family) :
    ((baseEntries fs).map Prod.fst).Perm (fs.map (·.base.name) ++ fs.map (·.containerType)) := by
  have h := List.flatMap_append_perm fs (fun f => [f.base.name]) (fun f => [f.containerType])
  rw [← List.map_eq_flatMap, ← List.map_eq_flatMap] at h
  refine .trans (.of_eq ?_) h.symm
  simp [baseEntries, List.map_flatMap]

@[simp]
theorem Family.bare_group (f : Family) : f.bare.group = f.group :=
  rfl

@[simp]
theorem Family.bare_containerType (f : Family) : f.bare.containerType = f.containerType :=
  rfl

theorem variantEntries_fst (fs : List Family) :
    (variantEntries (fs.flatMap (·.variants))).map Prod.fst =
      (fs.flatMap fun f => f.variants.map fun v => (f, v)).map (·.2.name) := by
  simp [variantEntries, List.map_flatMap, Function.comp_def]

/-- **The names that are taken in the end are those of all types.** -/
theorem distinct_iff_typeNames {es : List EnumSource} {r : Registry}
    (he : r.enums = es.map fun e => ⟨e.name, e.members⟩) :
    Distinct ((variantEntries (r.families.flatMap (·.variants))).reverse ++
      ((baseEntries r.families).reverse ++ ((enumEntries es).reverse ++ initial))) ↔
    r.typeNames.Nodup := by
  have henums : r.enums.map (·.name) = (enumEntries es).map Prod.fst := by
    simp [he, enumEntries]
  have hinit : (initial.map Prod.fst) = [nodeHeaderName, discriminatorEnumName] := rfl
  unfold Distinct Registry.typeNames Registry.variants
  rw [henums, ← hinit, ← variantEntries_fst]
  apply List.Perm.nodup_iff
  simp only [List.map_append, List.map_reverse]
  generalize (variantEntries _).map Prod.fst = vs, (enumEntries es).map Prod.fst = es,
    initial.map Prod.fst = is
  have hb := (List.reverse_perm _).trans (baseEntries_perm r.families)
  have he : (es.reverse ++ is).Perm (is ++ es) :=
    ((List.reverse_perm es).append_right is).trans List.perm_append_comm
  calc vs.reverse ++ (((baseEntries r.families).map Prod.fst).reverse ++ (es.reverse ++ is))
    _ ~ vs ++ ((r.families.map (·.base.name) ++ r.families.map (·.containerType)) ++ (is ++ es)) :=
      (List.reverse_perm vs).append (hb.append he)
    _ ~ ((is ++ es) ++ (r.families.map (·.base.name) ++ r.families.map (·.containerType))) ++ vs :=
      List.perm_append_comm.trans (List.perm_append_comm.append_right vs)
    _ = is ++ es ++ r.families.map (·.base.name) ++ r.families.map (·.containerType) ++ vs := by
      rw [← List.append_assoc]

/-! ### Tags -/

theorem enumeratorEntries_fst {es : List EnumSource} {r : Registry}
    (he : r.enums = es.map fun e => ⟨e.name, e.members⟩) :
    (enumeratorEntries es).map Prod.fst = r.enumerators := by
  unfold enumeratorEntries Registry.enumerators
  rw [he, List.map_flatMap, List.flatMap_map]
  simp [Function.comp_def]

theorem tagsFrom_name (start : ℕ) (fs : List Family) :
    (tagsFrom start fs).map (·.name) =
      (fs.flatMap (·.variants)).map fun v => discriminatorName v.name := by
  induction fs generalizing start with
  | nil => rfl
  | cons f fs ih =>
    rw [tagsFrom_cons, List.flatMap_cons, List.map_append, List.map_append, ih, List.map_map]
    rfl

/-- The variants pass the checks of the third pass if their members and their tags do. -/
theorem isVariant_iff {es : List EnumSource} {r : Registry}
    (he : r.enums = es.map fun e => ⟨e.name, e.members⟩)
    (ht : r.discriminators = tagsFrom 0 r.families) :
    (∀ f ∈ r.families, ∀ v ∈ f.variants, v.IsVariant (enumeratorEntries es).reverse) ↔
      (∀ f ∈ r.families, ∀ v ∈ f.variants,
        (v.fields.map (·.name)).Nodup ∧ headerMember ∉ v.fields.map (·.name)) ∧
      ∀ d ∈ r.discriminators, d.name ∉ r.enumerators := by
  have hm (name : String) :
      name ∈ (enumeratorEntries es).reverse.map Prod.fst ↔ name ∈ r.enumerators := by
    rw [List.map_reverse, List.mem_reverse, enumeratorEntries_fst he]
  have htags : (∀ d ∈ r.discriminators, d.name ∉ r.enumerators) ↔
      ∀ f ∈ r.families, ∀ v ∈ f.variants, discriminatorName v.name ∉ r.enumerators := by
    rw [← List.forall_mem_map (P := (· ∉ r.enumerators)), ht, tagsFrom_name, List.forall_mem_map]
    constructor
    · exact fun h f hf v hv => h v (List.mem_flatMap.2 ⟨f, hf, hv⟩)
    · intro h v hv
      obtain ⟨f, hf, hv⟩ := List.mem_flatMap.1 hv
      exact h f hf v hv
  rw [htags]
  constructor
  · intro h
    exact ⟨fun f hf v hv => ⟨(h f hf v hv).fields, (h f hf v hv).embedded⟩,
      fun f hf v hv hmem => (h f hf v hv).tag ((hm _).2 hmem)⟩
  · rintro ⟨h, htag⟩ f hf v hv
    exact ⟨(h f hf v hv).1, (h f hf v hv).2, fun hmem => htag f hf v hv ((hm _).1 hmem)⟩

/-! ### The registry -/

namespace Source

variable {s : Source} {r : Registry}

/-- A registry that is built is the one that the source declares, and it is consistent. -/
theorem declares_of_build (h : s.build = .ok r) : s.Declares r ∧ r.Consistent := by
  obtain ⟨⟨names, enumerators⟩, h1, h⟩ := bind_eq_ok.1 h
  obtain ⟨hes, rfl, hn, rfl, hm⟩ := (addEnums_ok_iff distinct_initial distinct_nil).1 h1
  obtain ⟨⟨bases, names⟩, h2, h⟩ := bind_eq_ok.1 h
  obtain ⟨_, rfl, hbs, hg, hk, rfl, hn⟩ := (addBases_ok_iff hn (by simp) (by simp)).1 h2
  obtain ⟨⟨fs, tags⟩, h3, h⟩ := bind_eq_ok.1 h
  obtain ⟨hbare, hfs, hvs, rfl, ht, hn⟩ := (addAllVariants_ok_iff hbs hn tagsDistinct_nil).1 h3
  -- the three passes are known by now, and their results are the fields of `r`
  obtain ⟨henums, rfl, htags⟩ : r.enums = (s.enums.map fun e => ⟨e.name, e.members⟩) ∧
      r.families = fs ∧ r.discriminators = tagsFrom 0 fs := by
    cases h
    exact ⟨rfl, rfl, rfl⟩
  subst hbare
  rw [List.append_nil] at hm hvs
  rw [baseEntries_bare] at hn
  obtain ⟨hdecl, hbase⟩ := forall₂_reads_iff.1 hfs
  obtain ⟨hfields, hdisj⟩ := (isVariant_iff henums htags).1 hvs
  refine ⟨⟨henums, hdecl, htags⟩, ?_⟩
  exact {
    enum_names := by simpa [henums] using hes
    group_names := fun f hf => (hbase f hf).group_name
    enumerators := by
      rw [← enumeratorEntries_fst henums]
      simpa [Distinct] using hm
    groups := by simpa [Function.comp_def] using hg
    containers := by simpa [Function.comp_def] using hk
    header := fun f hf => (hbase f hf).header
    base_fields := fun f hf => (hbase f hf).fields
    variant_fields := hfields
    typeNames := (distinct_iff_typeNames henums).1 hn
    tags := htags ▸ ht
    tags_enumerators := hdisj }

/-- A consistent registry that the source declares is built. -/
theorem build_of_declares (hd : s.Declares r) (hc : r.Consistent) : s.build = .ok r := by
  have hes : ∀ e ∈ s.enums, isIdentifier e.name ∧ ∀ m ∈ e.members, isIdentifier m := by
    simpa [hd.enums] using hc.enum_names
  have hm : Distinct ((enumeratorEntries s.enums).reverse ++ []) := by
    have h := hc.enumerators
    rw [← enumeratorEntries_fst hd.enums] at h
    simpa [Distinct] using h
  -- distinct in the end, the names are distinct after each pass
  have hn := (distinct_iff_typeNames hd.enums).2 hc.typeNames
  rw [← baseEntries_bare] at hn
  have hfs := forall₂_reads_iff.2 ⟨hd.families, fun f hf =>
    ⟨hc.group_names f hf, hc.header f hf, hc.base_fields f hf⟩⟩
  have hbs := forall₂_declaresBase hfs
  have hvs := (isVariant_iff hd.enums hd.discriminators).2 ⟨hc.variant_fields, hc.tags_enumerators⟩
  have hg : ((r.families.map Family.bare).map (·.group)).Nodup := by
    simpa [Function.comp_def] using hc.groups
  have hk : ((r.families.map Family.bare).map (·.containerType)).Nodup := by
    simpa [Function.comp_def] using hc.containers
  refine bind_eq_ok.2 ⟨(_, _), (addEnums_ok_iff distinct_initial distinct_nil).2
    ⟨hes, rfl, hn.of_append.of_append, rfl, hm⟩, ?_⟩
  refine bind_eq_ok.2 ⟨(_, _), (addBases_ok_iff hn.of_append.of_append (by simp) (by simp)).2
    ⟨_, rfl, hbs, hg, hk, rfl, hn.of_append⟩, ?_⟩
  refine bind_eq_ok.2 ⟨(_, _), (addAllVariants_ok_iff hbs hn.of_append tagsDistinct_nil).2
    ⟨rfl, hfs, by rwa [List.append_nil], rfl, ?_, hn⟩, ?_⟩
  · exact hd.discriminators ▸ hc.tags
  · obtain ⟨enums, families, discriminators⟩ := r
    have h1 := hd.enums
    have h2 := hd.discriminators
    simp_all [pure, Except.pure]

/-- Every record of the registry is declared by an entry of the source. -/
theorem Declares.exists_entry (h : s.Declares r) {f : Family} (hf : f ∈ r.families) {v : Record}
    (hv : v ∈ f.base :: f.variants) : ∃ s' ∈ s.families, ∃ e ∈ s'.entries, e.Declares v := by
  obtain ⟨s', hs', hdecl⟩ := exists_of_forall₂ h.families.flip hf
  obtain ⟨e, es, hes, he, hvs⟩ := hdecl.entries
  refine ⟨s', hs', ?_⟩
  rw [hes]
  rcases List.mem_cons.1 hv with rfl | hv
  · exact ⟨e, List.mem_cons_self, he⟩
  · obtain ⟨e', he', hv'⟩ := exists_of_forall₂ hvs.flip hv
    exact ⟨e', List.mem_cons_of_mem e he', hv'⟩

/-- Base records have identifiers for names. -/
theorem Declares.isIdentifier_base (h : s.Declares r) {f : Family} (hf : f ∈ r.families) :
    isIdentifier f.base.name := by
  obtain ⟨_, -, e, -, he⟩ := h.exists_entry hf List.mem_cons_self
  exact (pieces_of_readEntry he).1

/-- **A registry is built exactly if the source declares it and it is consistent.** -/
theorem build_eq_ok_iff (s : Source) (r : Registry) :
    s.build = .ok r ↔ s.Declares r ∧ r.Consistent :=
  ⟨declares_of_build, fun h => build_of_declares h.1 h.2⟩

end Source

/-! ### Names and calls -/

/-- Names and calls of names. -/
def callSource : Source :=
  .ofTables [("expr",
    [ "Expr : Node self, int kind"
      , "Name : Token text"
      , "Call : struct Name *callee, ExprArray arguments" ])]

/-- The variant of calls. -/
def callVariant : Record :=
  ⟨"Call", [⟨.pointer "struct Name", "callee"⟩, ⟨.value "ExprArray", "arguments"⟩],
    .builtin "expr" 2⟩

/-- The family of both. -/
def callFamily : Family where
  group := "expr"
  base :=
    ⟨"Expr", [⟨.value nodeHeaderName, headerMember⟩, ⟨.value "int", "kind"⟩], .builtin "expr" 0⟩
  variants := [⟨"Name", [⟨.value "Token", "text"⟩], .builtin "expr" 1⟩, callVariant]

/-- Their registry. -/
def callRegistry : Registry :=
  ⟨[], [callFamily], [⟨"NODE_NAME", "Name", 0⟩, ⟨"NODE_CALL", "Call", 0⟩]⟩

theorem build_callSource : callSource.build = .ok callRegistry := by
  decide +kernel

end NodeSchema

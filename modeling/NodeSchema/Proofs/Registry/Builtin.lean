import NodeSchema.Builtin
import NodeSchema.Proofs.Registry.Build

/-!
# The built-in schema

The built-in schema is a consistent one, so a command that names no schema file always has a registry.
Decoding its texts takes most of the time of computing that registry. So its tables are read from lists
of characters here, and what they declare is checked for consistency.

* `readEntry_ofList`: reading the characters of an entry is reading the entry.
* `Registry.ofChars`, `Source.build_of_ofChars`: the registry of tables, from their characters.
* `Registry.Consistent` is decidable.
* `Builtin.exists_registry`: **the built-in schema is accepted.**
-/

namespace NodeSchema

open Text

/-! ### Reading characters -/

/-- Reads one field. -/
def Field.ofChars (loc : Location) (text : List Char) : Except Stop Field :=
  match trim text with
  | [] => .error (Error.malformedField loc (String.ofList text) FieldFault.empty.text)
  | entry =>
    match readTrimmed entry with
    | none => .error .aborted
    | some (.ok f) => .ok f
    | some (.error fault) => .error (Error.malformedField loc (String.ofList entry) fault.text)

/-- Reads fields separated by commas. -/
def fieldsOfChars (loc : Location) (text : List Char) : Except Stop (List Field) :=
  if text.all isBlank then .ok [] else (text.splitOn ',').mapM (Field.ofChars loc)

/-- Reads the record of an entry. -/
def Record.ofChars (loc : Location) (text : List Char) : Except Stop Record :=
  match cut ':' text with
  | none => .error (Error.missingSeparator loc (trimmed (String.ofList text)))
  | some (front, rest) =>
    match trim front with
    | [] => .error (Error.emptyName loc (trimmed (String.ofList text)))
    | name =>
      if isWord name then do
        let fields ← fieldsOfChars loc rest
        return ⟨String.ofList name, fields, loc⟩
      else
        .error (Error.invalidName loc (String.ofList name))

theorem readField_ofList (loc : Location) (text : List Char) :
    readField loc (String.ofList text) = Field.ofChars loc text := by
  rw [readField, String.toList_ofList]
  rfl

theorem readFields_ofList (loc : Location) (text : List Char) :
    readFields loc (String.ofList text) = fieldsOfChars loc text := by
  have hread : (fun piece => readField loc (String.ofList piece)) = Field.ofChars loc :=
    funext fun piece => readField_ofList loc piece
  rw [readFields, String.toList_ofList, hread]
  rfl

theorem readEntry_ofList (loc : Location) (text : List Char) :
    readEntry loc (String.ofList text) = Record.ofChars loc text := by
  rw [readEntry, String.toList_ofList, Record.ofChars]
  cases cut ':' text with
  | none => rfl
  | some parts =>
    obtain ⟨front, rest⟩ := parts
    simp only
    cases trim front with
    | nil => rfl
    | cons c name =>
      simp only [readFields_ofList, expectIdentifier, isIdentifier, String.toList_ofList]
      split <;> rfl

/-! ### Reading tables -/

/-- Reads the family of a table. -/
def Family.ofChars (group : String) (entries : List (List Char)) : Except Stop Family := do
  match ← entries.zipIdx.mapM fun e => Record.ofChars (.builtin group e.2) e.1 with
  | [] => .error (Error.emptyFamily (.builtin group 0) group)
  | base :: variants => .ok ⟨group, base, variants⟩

/-- Reads tables. -/
def Registry.ofChars (enums : List PreludeEnum) (tables : List (String × List (List Char))) :
    Except Stop Registry := do
  let fs ← tables.mapM fun t => Family.ofChars t.1 t.2
  return ⟨enums, fs, tagsFrom 0 fs⟩

/-- The source of a table. -/
def tableSource (group : String) (entries : List String) : FamilySource :=
  ⟨group, entries.zipIdx.map fun e => ⟨e.1, .builtin group e.2⟩, .builtin group 0⟩

theorem declares_of_ofChars {group : String} {entries : List (List Char)} {f : Family}
    (h : Family.ofChars group entries = .ok f) :
    (tableSource group (entries.map String.ofList)).Declares f := by
  obtain ⟨vs, hread, h⟩ := bind_eq_ok.1 h
  have hentries : List.Forall₂ EntrySource.Declares
      (tableSource group (entries.map String.ofList)).entries vs := by
    rw [tableSource, List.zipIdx_map, List.map_map, List.forall₂_map_left_iff]
    refine (mapM_eq_ok.1 hread).imp fun e v hv => ?_
    exact (readEntry_ofList _ _).trans hv
  cases vs with
  | nil => cases h
  | cons base variants =>
    cases h
    obtain ⟨e, es, hbase, hvariants, hes⟩ := List.forall₂_cons_right_iff.1 hentries
    exact ⟨rfl, e, es, hes, hbase, hvariants⟩

/-- The groups of tables are kept if no blanks are around them. -/
theorem families_ofTables {tables : List (String × List String)}
    (h : ∀ t ∈ tables, trimmed t.1 = t.1) :
    (Source.ofTables tables).families = tables.map fun t => tableSource t.1 t.2 := by
  have hfold (s : Source) : (tables.foldl (fun s t => s.addTable t.1 t.2) s).families =
      s.families ++ tables.map fun t => tableSource t.1 t.2 := by
    induction tables generalizing s with
    | nil => simp
    | cons t tables ih =>
      obtain ⟨ht, htables⟩ := List.forall_mem_cons.1 h
      rw [List.foldl_cons, ih htables, List.map_cons, Source.addTable, Source.addFamily, ht,
        List.append_assoc]
      rfl
  exact hfold .empty

/-- What tables declare is built if it is consistent. -/
theorem Source.build_of_ofChars {s : Source} {tables : List (String × List (List Char))}
    {r : Registry}
    (hs : s.families = tables.map fun t => tableSource t.1 (t.2.map String.ofList))
    (h : Registry.ofChars (s.enums.map fun e => ⟨e.name, e.members⟩) tables = .ok r)
    (hc : r.Consistent) : s.build = .ok r := by
  obtain ⟨fs, hread, h⟩ := bind_eq_ok.1 h
  cases h
  refine build_of_declares ⟨rfl, ?_, rfl⟩ hc
  rw [hs, List.forall₂_map_left_iff]
  exact (mapM_eq_ok.1 hread).imp fun t f hf => declares_of_ofChars hf

/-! ### Deciding consistency -/

instance (r : Registry) : Decidable r.Consistent :=
  decidable_of_iff
    ((∀ e ∈ r.enums, isIdentifier e.name ∧ ∀ m ∈ e.members, isIdentifier m) ∧
      (∀ f ∈ r.families, isIdentifier f.group) ∧ r.enumerators.Nodup ∧
      (r.families.map (·.group)).Nodup ∧ (r.families.map (·.containerType)).Nodup ∧
      (∀ f ∈ r.families, f.base.hasHeader) ∧
      (∀ f ∈ r.families, (f.base.fields.map (·.name)).Nodup) ∧
      (∀ f ∈ r.families, ∀ v ∈ f.variants,
        (v.fields.map (·.name)).Nodup ∧ headerMember ∉ v.fields.map (·.name)) ∧
      r.typeNames.Nodup ∧ (r.discriminators.map (·.name)).Nodup ∧
      ∀ d ∈ r.discriminators, d.name ∉ r.enumerators)
    ⟨fun ⟨h1, h2, h3, h4, h5, h6, h7, h8, h9, h10, h11⟩ =>
      ⟨h1, h2, h3, h4, h5, fun f hf => Record.hasHeader_iff.1 (h6 f hf), h7, h8, h9, h10, h11⟩,
    fun h => ⟨h.enum_names, h.group_names, h.enumerators, h.groups, h.containers,
      fun f hf => Record.hasHeader_iff.2 (h.header f hf), h.base_fields, h.variant_fields,
      h.typeNames, h.tags, h.tags_enumerators⟩⟩

/-! ### The built-in schema -/

theorem mem_toOption_iff {ε α : Type} {x : Except ε α} {a : α} : a ∈ x.toOption ↔ x = .ok a := by
  cases x <;> simp [Except.toOption]

namespace Builtin

theorem eq_map_ofList {texts : List String} {entries : List (List Char)}
    (h : List.Forall₂ (fun text entry => text = String.ofList entry) texts entries) :
    texts = entries.map String.ofList := by
  rw [← List.forall₂_eq_eq_eq, List.forall₂_map_right_iff]
  exact h

-- the longest text is unfolded into more characters than the default depth allows
set_option maxRecDepth 2000 in
/-- The registry of the tables can be computed from their characters. -/
theorem exists_ofChars : ∃ types es ss ps : List (List Char),
    (typeNodes = types.map String.ofList ∧ exprs = es.map String.ofList ∧
      stmts = ss.map String.ofList ∧ parameters = ps.map String.ofList) ∧
    ∃ r ∈ (Registry.ofChars (source.enums.map fun e => ⟨e.name, e.members⟩)
      [("typeNode", types), ("expr", es), ("stmt", ss), ("parameter", ps)]).toOption,
      r.Consistent := by
  repeat apply Exists.intro
  apply And.intro
  · -- each text is one of characters that are not known yet, and unfolding it finds them
    repeat' apply And.intro
    all_goals
      apply eq_map_ofList
      repeat' first
        | exact rfl
        | exact List.Forall₂.nil
        | apply List.Forall₂.cons
  · decide +kernel

/-- **The built-in schema is accepted**, and what it declares is consistent. -/
theorem exists_registry : ∃ r, registry = .ok r ∧ source.Declares r ∧ r.Consistent := by
  obtain ⟨types, es, ss, ps, ⟨htypes, hes, hss, hps⟩, r, hr, hc⟩ := exists_ofChars
  have hread : Registry.ofChars (source.enums.map fun e => ⟨e.name, e.members⟩)
      [("typeNode", types), ("expr", es), ("stmt", ss), ("parameter", ps)] = .ok r :=
    mem_toOption_iff.1 hr
  have hgroups : ∀ t ∈ families, trimmed t.1 = t.1 := by decide +kernel
  have hsource : source.families =
      [("typeNode", types), ("expr", es), ("stmt", ss), ("parameter", ps)].map
        fun t => tableSource t.1 (t.2.map String.ofList) := by
    refine (families_ofTables hgroups).trans ?_
    rw [families, htypes, hes, hss, hps]
    rfl
  have hbuild : registry = .ok r := Source.build_of_ofChars hsource hread hc
  exact ⟨r, hbuild, Source.declares_of_build hbuild⟩

end Builtin

end NodeSchema

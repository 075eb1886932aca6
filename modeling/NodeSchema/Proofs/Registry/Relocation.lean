import NodeSchema.Proofs.Registry.Passes

/-!
# Locations are carried, never read

A registry and an error carry the locations of the definitions that they come from, and nothing is
decided by a location. So moving the definitions of a source to other places moves the locations in
the outcome of building it, and changes nothing else.

* `Source.build_relocate`: **building commutes with moving definitions.**
* `Registry.Consistent.relocate`: consistency does not depend on locations.
* `Source.outcome_eq_of_unplaced_eq`: sources that differ in locations only have one outcome, up to
  locations.
-/

namespace NodeSchema

variable (φ : Location → Location)

/-! ### Moving definitions -/

def Record.relocate (v : Record) : Record :=
  { v with loc := φ v.loc }

def Family.relocate (f : Family) : Family :=
  ⟨f.group, f.base.relocate φ, f.variants.map (Record.relocate φ)⟩

def Registry.relocate (r : Registry) : Registry :=
  { r with families := r.families.map (Family.relocate φ) }

def EnumSource.relocate (e : EnumSource) : EnumSource :=
  { e with loc := φ e.loc }

def EntrySource.relocate (e : EntrySource) : EntrySource :=
  { e with loc := φ e.loc }

def FamilySource.relocate (s : FamilySource) : FamilySource :=
  ⟨s.group, s.entries.map (EntrySource.relocate φ), φ s.loc⟩

def Source.relocate (s : Source) : Source :=
  ⟨s.enums.map (EnumSource.relocate φ), s.families.map (FamilySource.relocate φ)⟩

def Error.relocate : Error → Error
  | missingSeparator loc entry => missingSeparator (φ loc) entry
  | emptyName loc entry => emptyName (φ loc) entry
  | invalidName loc name => invalidName (φ loc) name
  | malformedField loc field fault => malformedField (φ loc) field fault
  | missingHeader loc record => missingHeader (φ loc) record
  | emptyFamily loc group => emptyFamily (φ loc) group
  | duplicateFamily loc group reason => duplicateFamily (φ loc) group reason
  | discriminatorCollision loc variant previous discriminator =>
    discriminatorCollision (φ loc) variant previous discriminator
  | duplicateTypeName loc name existing => duplicateTypeName (φ loc) name existing
  | duplicateField loc record field => duplicateField (φ loc) record field
  | e => e

def Stop.relocate : Stop → Stop
  | error e => error (e.relocate φ)
  | aborted => aborted

/-- An outcome with the locations of its error moved, and its value as `g` moves it. -/
def relocateOutcome {α β : Type} (g : α → β) : Except Stop α → Except Stop β
  | .ok a => .ok (g a)
  | .error stop => .error (stop.relocate φ)

variable {φ}

section

variable {α α' β β' : Type}

/-- **Outcomes that are moved alike go on alike.** -/
theorem relocateOutcome_bind {g : α → α'} {k : β → β'} {x : Except Stop α}
    {f : α → Except Stop β} {f' : α' → Except Stop β'}
    (h : ∀ a, f' (g a) = relocateOutcome φ k (f a)) :
    relocateOutcome φ g x >>= f' = relocateOutcome φ k (x >>= f) := by
  cases x with
  | error stop => rfl
  | ok a => exact h a

end

/-! ### Records -/

/-- A field is read alike everywhere, and what is reported is reported at the location that is
given. -/
theorem readField_relocate (loc : Location) (text : String) :
    readField (φ loc) text = relocateOutcome φ id (readField loc text) := by
  unfold readField
  cases Text.trim text.toList with
  | nil => rfl
  | cons c s =>
    simp only
    cases readTrimmed (c :: s) with
    | none => rfl
    | some outcome => cases outcome <;> rfl

theorem mapM_readField_relocate (loc : Location) (pieces : List (List Char)) :
    (pieces.mapM fun piece => readField (φ loc) (String.ofList piece)) =
      relocateOutcome φ id (pieces.mapM fun piece => readField loc (String.ofList piece)) := by
  induction pieces with
  | nil => rfl
  | cons piece pieces ih =>
    rw [List.mapM_cons, List.mapM_cons, readField_relocate, ih]
    exact relocateOutcome_bind fun f => relocateOutcome_bind fun fs => rfl

theorem readFields_relocate (loc : Location) (text : String) :
    readFields (φ loc) text = relocateOutcome φ id (readFields loc text) := by
  unfold readFields
  split_ifs
  · rfl
  · exact mapM_readField_relocate loc _

theorem expectIdentifier_relocate (loc : Location) (name : String) :
    expectIdentifier (φ loc) name = relocateOutcome φ id (expectIdentifier loc name) := by
  unfold expectIdentifier
  split_ifs <;> rfl

/-- The record that is read has the location that is given. -/
theorem readEntry_relocate (loc : Location) (entry : String) :
    readEntry (φ loc) entry = relocateOutcome φ (Record.relocate φ) (readEntry loc entry) := by
  unfold readEntry
  cases Text.cut ':' entry.toList with
  | none => rfl
  | some parts =>
    obtain ⟨front, rest⟩ := parts
    simp only
    cases Text.trim front with
    | nil => rfl
    | cons c s =>
      simp only
      rw [expectIdentifier_relocate, readFields_relocate]
      exact relocateOutcome_bind fun _ => relocateOutcome_bind fun fields => rfl

theorem Record.expectDistinct_relocate (v : Record) (embedded : List String) :
    (v.relocate φ).expectDistinct embedded = relocateOutcome φ id (v.expectDistinct embedded) := by
  unfold Record.expectDistinct Record.relocate
  cases firstRepeated embedded v.fields <;> rfl

theorem Names.declare_relocate (names : Names) (loc : Location) (name : String) (kind : NameKind) :
    names.declare (φ loc) name kind = relocateOutcome φ id (names.declare loc name kind) := by
  unfold Names.declare
  cases names.lookup name <;> rfl

/-! ### The three passes -/

/-- The names of enumerators are taken alike at every location. -/
theorem addEnumerators_relocate (loc : Location) (owner : String) (ms : List String)
    (enumerators : Names) :
    addEnumerators (φ loc) owner ms enumerators =
      relocateOutcome φ id (addEnumerators loc owner ms enumerators) := by
  induction ms generalizing enumerators with
  | nil => rfl
  | cons m ms ih =>
    rw [addEnumerators, addEnumerators, expectIdentifier_relocate]
    refine relocateOutcome_bind fun _ => ?_
    rw [Names.declare_relocate]
    exact relocateOutcome_bind fun enumerators => ih enumerators

theorem addEnums_relocate (es : List EnumSource) (names enumerators : Names) :
    addEnums (es.map (EnumSource.relocate φ)) names enumerators =
      relocateOutcome φ id (addEnums es names enumerators) := by
  induction es generalizing names enumerators with
  | nil => rfl
  | cons e es ih =>
    rw [List.map_cons, addEnums, addEnums, EnumSource.relocate, expectIdentifier_relocate]
    refine relocateOutcome_bind fun _ => ?_
    rw [Names.declare_relocate]
    refine relocateOutcome_bind fun names => ?_
    rw [addEnumerators_relocate]
    exact relocateOutcome_bind fun enumerators => ih names enumerators

/-- Whether groups clash does not depend on locations. -/
theorem clashReason?_relocate (previous : List Family) (group : String) :
    clashReason? (previous.map (Family.relocate φ)) group = clashReason? previous group := by
  unfold clashReason?
  simp only [List.any_map]
  rfl

theorem addBase_relocate (previous : List Family) (names : Names) (s : FamilySource) :
    addBase (previous.map (Family.relocate φ)) names (s.relocate φ) =
      relocateOutcome φ (Prod.map (Family.relocate φ) id) (addBase previous names s) := by
  unfold addBase
  obtain ⟨group, entries, loc⟩ := s
  simp only [FamilySource.relocate]
  rw [expectIdentifier_relocate]
  refine relocateOutcome_bind fun _ => ?_
  cases entries with
  | nil => rfl
  | cons e es =>
    simp only [List.map_cons, clashReason?_relocate]
    cases clashReason? previous group with
    | some reason => rfl
    | none =>
      simp only [EntrySource.relocate]
      rw [readEntry_relocate]
      refine relocateOutcome_bind fun base => ?_
      have hheader : (base.relocate φ).hasHeader = base.hasHeader := rfl
      rw [hheader]
      split_ifs
      · rfl
      · rw [Record.expectDistinct_relocate]
        refine relocateOutcome_bind fun _ => ?_
        rw [Names.declare_relocate]
        refine relocateOutcome_bind fun names => ?_
        rw [Names.declare_relocate]
        exact relocateOutcome_bind fun names => rfl

theorem addBases_relocate (ss : List FamilySource) (previous : List Family) (names : Names) :
    addBases (ss.map (FamilySource.relocate φ)) (previous.map (Family.relocate φ)) names =
      relocateOutcome φ (Prod.map (List.map (Family.relocate φ)) id)
        (addBases ss previous names) := by
  induction ss generalizing previous names with
  | nil => rfl
  | cons s ss ih =>
    rw [List.map_cons, addBases, addBases, addBase_relocate]
    refine relocateOutcome_bind fun base => ?_
    obtain ⟨f, names⟩ := base
    rw [← ih, List.map_append]
    rfl

theorem addVariant_relocate (enumerators : Names) (family : Nat) (e : EntrySource)
    (tags : List Discriminator) (names : Names) :
    addVariant enumerators family (e.relocate φ) tags names =
      relocateOutcome φ (Prod.map (Record.relocate φ) id)
        (addVariant enumerators family e tags names) := by
  unfold addVariant
  simp only [EntrySource.relocate]
  rw [readEntry_relocate]
  refine relocateOutcome_bind fun v => ?_
  rw [Record.expectDistinct_relocate]
  refine relocateOutcome_bind fun _ => ?_
  have hname : (v.relocate φ).name = v.name := rfl
  simp only [hname]
  cases tags.find? (·.name = discriminatorName v.name) with
  | some d => rfl
  | none =>
    simp only
    cases enumerators.lookup (discriminatorName v.name) with
    | some taken => rfl
    | none =>
      simp only
      rw [Names.declare_relocate]
      exact relocateOutcome_bind fun names => rfl

/-- The tags and the names that variants take have no locations. -/
theorem addVariants_relocate (enumerators : Names) (family : Nat) (es : List EntrySource)
    (tags : List Discriminator) (names : Names) :
    addVariants enumerators family (es.map (EntrySource.relocate φ)) tags names =
      relocateOutcome φ (Prod.map (List.map (Record.relocate φ)) id)
        (addVariants enumerators family es tags names) := by
  induction es generalizing tags names with
  | nil => rfl
  | cons e es ih =>
    rw [List.map_cons, addVariants, addVariants, addVariant_relocate]
    refine relocateOutcome_bind fun first => ?_
    obtain ⟨v, tags, names⟩ := first
    simp only [Prod.map, id]
    rw [ih]
    exact relocateOutcome_bind fun rest => rfl

theorem addAllVariants_relocate (enumerators : Names) (family : Nat) (ss : List FamilySource)
    (fs : List Family) (tags : List Discriminator) (names : Names) :
    addAllVariants enumerators family (ss.map (FamilySource.relocate φ))
        (fs.map (Family.relocate φ)) tags names =
      relocateOutcome φ (Prod.map (List.map (Family.relocate φ)) id)
        (addAllVariants enumerators family ss fs tags names) := by
  induction ss generalizing family fs tags names with
  | nil => cases fs <;> rfl
  | cons s ss ih =>
    cases fs with
    | nil => rfl
    | cons f fs =>
      rw [List.map_cons, List.map_cons, addAllVariants, addAllVariants]
      have htail : (s.relocate φ).entries.tail = s.entries.tail.map (EntrySource.relocate φ) := by
        simp [FamilySource.relocate]
      rw [htail, addVariants_relocate]
      refine relocateOutcome_bind fun first => ?_
      obtain ⟨vs, tags, names⟩ := first
      simp only [Prod.map, id]
      rw [ih]
      exact relocateOutcome_bind fun rest => rfl

/-- **Building commutes with moving definitions.** -/
theorem Source.build_relocate (s : Source) :
    (s.relocate φ).build = relocateOutcome φ (Registry.relocate φ) s.build := by
  unfold Source.build
  simp only [Source.relocate]
  rw [addEnums_relocate]
  refine relocateOutcome_bind fun enums => ?_
  obtain ⟨names, enumerators⟩ := enums
  have hbases := addBases_relocate (φ := φ) s.families [] names
  simp only [List.map_nil] at hbases
  simp only [id]
  rw [hbases]
  refine relocateOutcome_bind fun bases => ?_
  obtain ⟨families, names⟩ := bases
  simp only [Prod.map, id]
  rw [addAllVariants_relocate]
  refine relocateOutcome_bind fun variants => ?_
  obtain ⟨families, discriminators⟩ := variants
  simp [relocateOutcome, Registry.relocate, EnumSource.relocate, Function.comp_def, pure,
    Except.pure]

/-! ### Consistency -/

section

variable (φ)

theorem Registry.typeNames_relocate (r : Registry) : (r.relocate φ).typeNames = r.typeNames := by
  simp [Registry.typeNames, Registry.relocate, Registry.variants, Family.relocate, Record.relocate,
    Family.containerType, List.map_flatMap, List.flatMap_map, Function.comp_def]

/-- Consistency does not depend on locations. -/
theorem Registry.Consistent.relocate {r : Registry} (h : r.Consistent) :
    (r.relocate φ).Consistent where
  enum_names := h.enum_names
  group_names := by simpa [Registry.relocate, Family.relocate] using h.group_names
  enumerators := h.enumerators
  groups := by simpa [Registry.relocate, Family.relocate, Function.comp_def] using h.groups
  containers := by
    simpa [Registry.relocate, Family.relocate, Family.containerType, Function.comp_def]
      using h.containers
  header := by simpa [Registry.relocate, Family.relocate, Record.relocate] using h.header
  base_fields := by simpa [Registry.relocate, Family.relocate, Record.relocate] using h.base_fields
  variant_fields := by
    simpa [Registry.relocate, Family.relocate, Record.relocate] using h.variant_fields
  typeNames := by
    rw [Registry.typeNames_relocate]
    exact h.typeNames
  tags := h.tags
  tags_enumerators := h.tags_enumerators

theorem tagsFrom_relocate (start : ℕ) (fs : List Family) :
    tagsFrom start (fs.map (Family.relocate φ)) = tagsFrom start fs := by
  induction fs generalizing start with
  | nil => rfl
  | cons f fs ih =>
    rw [List.map_cons, tagsFrom_cons, tagsFrom_cons, ih]
    simp [Family.relocate, Record.relocate, Record.tag, Function.comp_def]

end

/-! ### Up to locations -/

/-- A source without its locations. -/
def Source.unplaced (s : Source) : Source :=
  s.relocate fun _ => .unknown

/-- A registry without the locations of its records. -/
def Registry.unplaced (r : Registry) : Registry :=
  r.relocate fun _ => .unknown

/-- What became of a schema, up to locations: a registry, an error, or an abnormal end. -/
def outcome (x : Except Stop Registry) : Except Stop Registry :=
  relocateOutcome (fun _ => .unknown) Registry.unplaced x

/-- Building without locations has the outcome of building with them, up to locations. -/
theorem Source.build_unplaced (s : Source) : s.unplaced.build = outcome s.build :=
  s.build_relocate

/-- Sources that differ in locations only have one outcome, up to locations. -/
theorem Source.outcome_eq_of_unplaced_eq {s t : Source} (h : s.unplaced = t.unplaced) :
    outcome s.build = outcome t.build := by
  rw [← s.build_unplaced, ← t.build_unplaced, h]

/-- A registry that is built without locations is, up to these, built with them. -/
theorem Source.exists_build_of_unplaced {s : Source} {r : Registry} (h : s.unplaced.build = .ok r) :
    ∃ r', s.build = .ok r' ∧ r'.unplaced = r := by
  rw [s.build_unplaced] at h
  cases hs : s.build with
  | error stop => simp [hs, outcome, relocateOutcome] at h
  | ok r' =>
    simp only [hs, outcome, relocateOutcome, Except.ok.injEq] at h
    exact ⟨r', rfl, h⟩

end NodeSchema

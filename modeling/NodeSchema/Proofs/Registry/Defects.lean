import NodeSchema.Proofs.Registry.Grammar
import NodeSchema.Proofs.Registry.Numbering

/-!
# Defects of definitions

What is wrong with a definition depends on the registry of the definitions before it, and on nothing
that is kept while a source is checked. The tables of the passes hold the names of that registry, so
a step of a pass fails exactly for a defect.

* `Registry.Holds`, `Registry.HoldsMember`: what the names of types and of enumerators stand for.
* `NameDefect`, `FamilySource.GroupDefect`, `Record.BaseDefect`, `Record.VariantDefect`: **what is
  wrong with a definition**, in the order in which it is looked for.
* `addBase_eq_error_iff`, `addVariant_eq_error_iff`: a step fails exactly for a defect.
-/

namespace NodeSchema

open Text Names

/-! ### Names that are taken -/

/-- A type of the registry has this name. -/
inductive Registry.Holds (r : Registry) : String → NameKind → Prop
  | nodeHeader : r.Holds nodeHeaderName .nodeHeader
  | discriminatorEnum : r.Holds discriminatorEnumName .discriminatorEnum
  | preludeEnum {e : PreludeEnum} (he : e ∈ r.enums) : r.Holds e.name .preludeEnum
  | baseRecord {f : Family} (hf : f ∈ r.families) : r.Holds f.base.name .baseRecord
  | container {f : Family} (hf : f ∈ r.families) : r.Holds f.containerType .container
  | variant {f : Family} {v : Record} (hf : f ∈ r.families) (hv : v ∈ f.variants) :
      r.Holds v.name .variant

/-- An enum of the registry has this member. -/
inductive Registry.HoldsMember (r : Registry) : String → NameKind → Prop
  | enumerator {e : PreludeEnum} {m : String} (he : e ∈ r.enums) (hm : m ∈ e.members) :
      r.HoldsMember m (.enumerator e.name)

/-- The names of types that are taken after these enums and families. -/
def typeEntries (es : List EnumSource) (fs : List Family) : Names :=
  (variantEntries (fs.flatMap (·.variants))).reverse ++
    ((baseEntries fs).reverse ++ ((enumEntries es).reverse ++ initial))

namespace Names

/-- Looking up a name finds what it stands for. -/
def Lists (names : Names) (held : String → NameKind → Prop) : Prop :=
  ∀ name kind, names.lookup name = some kind ↔ held name kind

theorem lookup_eq_some_iff {names : Names} (hn : names.Distinct) {name : String} {kind : NameKind} :
    names.lookup name = some kind ↔ (name, kind) ∈ names := by
  induction names with
  | nil => simp
  | cons entry names ih =>
    obtain ⟨other, taken⟩ := entry
    obtain ⟨hfresh, hn⟩ := List.nodup_cons.1 hn
    rw [List.mem_cons, Prod.mk.injEq, List.lookup_cons]
    by_cases h : name = other
    · subst h
      have hnot : (name, kind) ∉ names := fun hmem => hfresh (List.mem_map.2 ⟨_, hmem, rfl⟩)
      simp [hnot, eq_comm]
    · simp [beq_eq_false_iff_ne.2 h, h, ih hn]

theorem lists_of_mem_iff {names : Names} {held : String → NameKind → Prop} (hn : names.Distinct)
    (h : ∀ name kind, (name, kind) ∈ names ↔ held name kind) : names.Lists held :=
  fun name kind => (lookup_eq_some_iff hn).trans (h name kind)

variable {names : Names} {held : String → NameKind → Prop} {loc : Location} {name : String}
  {kind : NameKind} {stop : Stop}

theorem Lists.lookup_eq_none_iff (h : names.Lists held) :
    names.lookup name = none ↔ ∀ kind, ¬ held name kind := by
  simp only [← h name, Option.eq_none_iff_forall_ne_some, ne_eq]

theorem Lists.cons (h : names.Lists held) (hfree : ∀ kind, ¬ held name kind) :
    Lists ((name, kind) :: names) fun n k => held n k ∨ n = name ∧ k = kind := by
  intro n k
  rw [List.lookup_cons]
  by_cases hn : n = name
  · subst hn
    simp [hfree, eq_comm]
  · simp [beq_eq_false_iff_ne.2 hn, hn, h n k]

theorem Lists.declare_eq_ok_iff (h : names.Lists held) {names' : Names} :
    names.declare loc name kind = .ok names' ↔
      (∀ kind, ¬ held name kind) ∧ names' = (name, kind) :: names := by
  rw [← h.lookup_eq_none_iff, declare]
  cases names.lookup name <;> simp [eq_comm]

/-- A name cannot be taken if it stands for something. -/
theorem Lists.declare_eq_error_iff (h : names.Lists held) :
    names.declare loc name kind = .error stop ↔
      ∃ taken, held name taken ∧ stop = Error.duplicateTypeName loc name taken.text := by
  simp only [← h name, declare]
  cases names.lookup name <;> simp [eq_comm]

end Names

theorem mem_typeEntries_iff {es : List EnumSource} {r : Registry}
    (he : r.enums = es.map fun e => ⟨e.name, e.members⟩) {name : String} {kind : NameKind} :
    (name, kind) ∈ typeEntries es r.families ↔ r.Holds name kind := by
  simp only [typeEntries, variantEntries, baseEntries, enumEntries, initial, List.mem_append,
    List.mem_reverse, List.mem_map, List.mem_flatMap, List.mem_cons, List.not_mem_nil, or_false,
    Prod.mk.injEq]
  constructor
  · rintro (⟨v, ⟨f, hf, hv⟩, rfl, rfl⟩ | ⟨f, hf, ⟨rfl, rfl⟩ | ⟨rfl, rfl⟩⟩ | ⟨e, he', rfl, rfl⟩ |
      ⟨rfl, rfl⟩ | ⟨rfl, rfl⟩)
    · exact .variant hf hv
    · exact .baseRecord hf
    · exact .container hf
    · exact .preludeEnum (he ▸ List.mem_map_of_mem he')
    · exact .nodeHeader
    · exact .discriminatorEnum
  · rintro (_ | _ | hmem | hf | hf | ⟨hf, hv⟩)
    · simp
    · simp
    · rw [he] at hmem
      obtain ⟨e, he', rfl⟩ := List.mem_map.1 hmem
      exact .inr (.inr (.inl ⟨e, he', rfl, rfl⟩))
    · exact .inr (.inl ⟨_, hf, .inl ⟨rfl, rfl⟩⟩)
    · exact .inr (.inl ⟨_, hf, .inr ⟨rfl, rfl⟩⟩)
    · exact .inl ⟨_, ⟨_, hf, hv⟩, rfl, rfl⟩

theorem mem_enumeratorEntries_iff {es : List EnumSource} {r : Registry}
    (he : r.enums = es.map fun e => ⟨e.name, e.members⟩) {name : String} {kind : NameKind} :
    (name, kind) ∈ (enumeratorEntries es).reverse ↔ r.HoldsMember name kind := by
  simp only [enumeratorEntries, List.mem_reverse, List.mem_flatMap, List.mem_map, Prod.mk.injEq]
  constructor
  · rintro ⟨e, he', m, hm, rfl, rfl⟩
    exact .enumerator (e := ⟨e.name, e.members⟩) (he ▸ List.mem_map_of_mem he') hm
  · rintro ⟨hmem, hm⟩
    rw [he] at hmem
    obtain ⟨e, he', rfl⟩ := List.mem_map.1 hmem
    exact ⟨e, he', _, hm, rfl, rfl⟩

namespace Registry.Consistent

variable {r : Registry} {es : List EnumSource}

/-- **The table of types lists the types of the registry.** -/
theorem lists_typeEntries (h : r.Consistent)
    (he : r.enums = es.map fun e => ⟨e.name, e.members⟩) :
    (typeEntries es r.families).Lists r.Holds :=
  lists_of_mem_iff ((distinct_iff_typeNames he).2 h.typeNames) fun _ _ => mem_typeEntries_iff he

/-- The table of enumerators lists the members of the enums. -/
theorem lists_enumeratorEntries (h : r.Consistent)
    (he : r.enums = es.map fun e => ⟨e.name, e.members⟩) :
    Lists (enumeratorEntries es).reverse r.HoldsMember := by
  refine lists_of_mem_iff ?_ fun _ _ => mem_enumeratorEntries_iff he
  unfold Distinct
  rw [List.map_reverse, List.nodup_reverse, enumeratorEntries_fst he]
  exact h.enumerators

end Registry.Consistent

/-! ### Names -/

/-- **What is wrong with a name** of an enum or of one of its members, when some names are taken. -/
inductive NameDefect (loc : Location) (name : String) (taken : NameKind → Prop) : Error → Prop
  | invalid : ¬ isIdentifier name → NameDefect loc name taken (.invalidName loc name)
  | taken {kind : NameKind} : isIdentifier name → taken kind →
      NameDefect loc name taken (.duplicateTypeName loc name kind.text)

theorem expectIdentifier_eq_error_iff {loc : Location} {name : String} {stop : Stop} :
    expectIdentifier loc name = .error stop ↔
      ¬ isIdentifier name ∧ stop = Error.invalidName loc name := by
  unfold expectIdentifier
  split_ifs with h
  · simp [h]
  · simp [h, eq_comm]

theorem declare_identifier_eq_error_iff {names : Names} {held : String → NameKind → Prop}
    (h : names.Lists held) {loc : Location} {name : String} {kind : NameKind} {stop : Stop} :
    (expectIdentifier loc name >>= fun _ => names.declare loc name kind) = .error stop ↔
      ∃ e, NameDefect loc name (held name) e ∧ stop = .error e := by
  simp only [bind_eq_error, expectIdentifier_eq_error_iff, expectIdentifier_ok_iff,
    h.declare_eq_error_iff, exists_const]
  constructor
  · rintro (⟨hid, rfl⟩ | ⟨hid, taken, htaken, rfl⟩)
    · exact ⟨_, .invalid hid, rfl⟩
    · exact ⟨_, .taken hid htaken, rfl⟩
  · rintro ⟨e, hid | ⟨hid, htaken⟩, rfl⟩
    · exact .inl ⟨hid, rfl⟩
    · exact .inr ⟨hid, _, htaken, rfl⟩

/-! ### Records -/

/-- Of the members of a record, the field is the first that has the name of one before it. -/
def Record.Repeats (v : Record) (embedded : List String) (f : Field) : Prop :=
  ∃ before after, v.fields = before ++ f :: after ∧
    (embedded ++ before.map (·.name)).Nodup ∧ f.name ∈ embedded ++ before.map (·.name)

/-- The members of a record have names of their own. -/
def Record.DistinctMembers (v : Record) (embedded : List String) : Prop :=
  (embedded ++ v.fields.map (·.name)).Nodup

/-- The first field of a record is the node header. -/
def Record.StartsWithHeader (v : Record) : Prop :=
  ∃ rest, v.fields = ⟨.value nodeHeaderName, headerMember⟩ :: rest

theorem firstRepeated_eq_some_iff {seen : List String} (hseen : seen.Nodup) {fs : List Field}
    {f : Field} :
    firstRepeated seen fs = some f ↔ ∃ before after, fs = before ++ f :: after ∧
      (seen ++ before.map (·.name)).Nodup ∧ f.name ∈ seen ++ before.map (·.name) := by
  induction fs generalizing seen with
  | nil => simp [firstRepeated]
  | cons g fs ih =>
    rw [firstRepeated]
    split_ifs with hg
    · rw [Option.some.injEq]
      constructor
      · rintro rfl
        exact ⟨[], fs, rfl, by simpa using hseen, by simpa using hg⟩
      · rintro ⟨_ | ⟨g', before⟩, after, h, hdistinct, -⟩
        · exact (List.cons_eq_cons.1 h).1
        · obtain ⟨rfl, -⟩ := List.cons_eq_cons.1 h
          exact (List.disjoint_of_nodup_append hdistinct hg (by simp)).elim
    · rw [ih (List.nodup_cons.2 ⟨hg, hseen⟩)]
      -- the name of `g` is either among those that are seen or among those of the fields before
      have hmove (before : List Field) : (g.name :: seen ++ before.map (·.name)).Perm
          (seen ++ (g :: before).map (·.name)) := List.perm_middle.symm
      constructor
      · rintro ⟨before, after, rfl, hdistinct, hmem⟩
        exact ⟨g :: before, after, rfl, (hmove before).nodup_iff.1 hdistinct,
          (hmove before).mem_iff.1 hmem⟩
      · rintro ⟨_ | ⟨g', before⟩, after, h, hdistinct, hmem⟩
        · obtain ⟨rfl, -⟩ := List.cons_eq_cons.1 h
          exact (hg (by simpa using hmem)).elim
        · obtain ⟨rfl, rfl⟩ := List.cons_eq_cons.1 h
          exact ⟨before, after, rfl, (hmove before).nodup_iff.2 hdistinct,
            (hmove before).mem_iff.2 hmem⟩

namespace Record

variable {v : Record} {embedded : List String}

theorem expectDistinct_eq_ok_iff (h : embedded.Nodup) :
    v.expectDistinct embedded = .ok () ↔ v.DistinctMembers embedded := by
  rw [expectDistinct_ok_iff, DistinctMembers, List.nodup_append_comm, List.nodup_append]
  constructor
  · exact fun ⟨hd, hs⟩ => ⟨hd, h, fun a ha b hb hab => hs a ha (hab ▸ hb)⟩
  · exact fun ⟨hd, _, hs⟩ => ⟨hd, fun a ha hb => hs a ha a hb rfl⟩

theorem expectDistinct_eq_error_iff (h : embedded.Nodup) {stop : Stop} :
    v.expectDistinct embedded = .error stop ↔
      ∃ f, v.Repeats embedded f ∧ stop = Error.duplicateField v.loc v.name f.name := by
  simp only [Repeats, ← firstRepeated_eq_some_iff h, expectDistinct]
  cases firstRepeated embedded v.fields <;> simp [eq_comm]

end Record

/-! ### Entries -/

/-- **What is wrong with an entry**: it is no entry, or its record does not pass the check. -/
inductive EntrySource.Defect (d : EntrySource) (check : Record → Error → Prop) : Stop → Prop
  | rejected {e : Error} : Rejected d.loc d.text.toList e → ¬ d.Stops .aborted →
      d.Defect check (.error e)
  /-- A field ends wide. -/
  | aborted : d.Stops .aborted → d.Defect check .aborted
  | record {v : Record} {e : Error} : d.Declares v → check v e → d.Defect check (.error e)

theorem EntrySource.Declares.loc {d : EntrySource} {v : Record} (h : d.Declares v) :
    v.loc = d.loc := by
  unfold Declares readEntry at h
  split at h
  · cases h
  · split at h
    · cases h
    · obtain ⟨_, -, h⟩ := bind_eq_ok.1 h
      obtain ⟨fields, -, h⟩ := bind_eq_ok.1 h
      cases h
      rfl

/-- Reading an entry and checking its record fails for what is wrong with the entry. -/
theorem EntrySource.bind_eq_error_iff {β : Type} {d : EntrySource} {check : Record → Error → Prop}
    {next : Record → Except Stop β} {stop : Stop}
    (h : ∀ v, v.loc = d.loc → (next v = .error stop ↔ ∃ e, check v e ∧ stop = .error e)) :
    (readEntry d.loc d.text >>= next) = .error stop ↔ d.Defect check stop := by
  have haborted : readEntry d.loc d.text = .error .aborted ↔ d.Stops .aborted :=
    readEntry_eq_error_iff Stop.ofField_aborted
  rw [bind_eq_error]
  constructor
  · rintro (hread | ⟨v, hread, hnext⟩)
    · cases stop with
      | aborted => exact .aborted (haborted.1 hread)
      | error e =>
        obtain ⟨hrejected, hne⟩ := readEntry_eq_error_iff_rejected.1 hread
        exact .rejected hrejected (mt haborted.2 hne)
    · obtain ⟨e, hcheck, rfl⟩ := (h v (Declares.loc hread)).1 hnext
      exact .record hread hcheck
  · rintro (⟨hrejected, hne⟩ | hstops | ⟨hread, hcheck⟩)
    · exact .inl (readEntry_eq_error_iff_rejected.2 ⟨hrejected, mt haborted.1 hne⟩)
    · exact .inl (haborted.2 hstops)
    · exact .inr ⟨_, hread, (h _ hread.loc).2 ⟨_, hcheck, rfl⟩⟩

theorem Rejected.location?_eq {loc : Location} {s : List Char} {e : Error}
    (h : Rejected loc s e) : e.location? = some loc := by
  cases h <;> rfl

/-- An entry is reported where it is if the check reports records where they are. -/
theorem EntrySource.Defect.location?_eq {d : EntrySource} {check : Record → Error → Prop}
    {e : Error} (h : d.Defect check (.error e))
    (hcheck : ∀ v e, check v e → e.location? = some v.loc) : e.location? = some d.loc := by
  cases h with
  | rejected hrejected _ => exact hrejected.location?_eq
  | record hread h => rw [hcheck _ _ h, hread.loc]

/-! ### Families -/

namespace FamilySource

/-- **What is wrong with a family**, apart from its entries. -/
inductive GroupDefect (r : Registry) (s : FamilySource) : Error → Prop
  | invalid : ¬ isIdentifier s.group → GroupDefect r s (.invalidName s.loc s.group)
  | empty : isIdentifier s.group → s.entries = [] → GroupDefect r s (.emptyFamily s.loc s.group)
  | group {f : Family} : isIdentifier s.group → s.entries ≠ [] → f ∈ r.families →
      f.group = s.group →
      GroupDefect r s (.duplicateFamily s.loc s.group "group name already used")
  | container {f : Family} : isIdentifier s.group → s.entries ≠ [] →
      (∀ f ∈ r.families, f.group ≠ s.group) → f ∈ r.families →
      f.containerType = containerType s.group →
      GroupDefect r s (.duplicateFamily s.loc s.group
        s!"container type `{containerType s.group}` already used")

/-- The group of a family can be taken. -/
structure GroupFree (r : Registry) (s : FamilySource) : Prop where
  identifier : isIdentifier s.group
  group : ∀ f ∈ r.families, f.group ≠ s.group
  container : ∀ f ∈ r.families, f.containerType ≠ containerType s.group

end FamilySource

/-- **What is wrong with a base record** whose container has this name. -/
inductive Record.BaseDefect (r : Registry) (container : String) (v : Record) : Error → Prop
  | header : ¬ v.StartsWithHeader → BaseDefect r container v (.missingHeader v.loc v.name)
  | field {f : Field} : v.StartsWithHeader → v.Repeats [] f →
      BaseDefect r container v (.duplicateField v.loc v.name f.name)
  | name {kind : NameKind} : v.StartsWithHeader → v.DistinctMembers [] → r.Holds v.name kind →
      BaseDefect r container v (.duplicateTypeName v.loc v.name kind.text)
  /-- The base record of the family itself takes its name before the container does. -/
  | container {kind : NameKind} : v.StartsWithHeader → v.DistinctMembers [] →
      (∀ kind, ¬ r.Holds v.name kind) →
      r.Holds container kind ∨ container = v.name ∧ kind = .baseRecord →
      BaseDefect r container v (.duplicateTypeName v.loc container kind.text)

section

variable {r : Registry} {s : FamilySource} {names : Names} {stop : Stop}

theorem clashReason?_eq_some_iff {previous : List Family} {group reason : String} :
    clashReason? previous group = some reason ↔
      ((∃ f ∈ previous, f.group = group) ∧ reason = "group name already used") ∨
      ((∀ f ∈ previous, f.group ≠ group) ∧
        (∃ f ∈ previous, f.containerType = containerType group) ∧
        reason = s!"container type `{containerType group}` already used") := by
  unfold clashReason?
  simp only [List.any_eq_true, decide_eq_true_eq]
  by_cases hgroup : ∃ f ∈ previous, f.group = group
  · have hnot : ¬ ∀ f ∈ previous, f.group ≠ group := by simpa using hgroup
    rw [if_pos hgroup, Option.some.injEq]
    simp only [hgroup, hnot, true_and, false_and, or_false]
    exact eq_comm
  · have hfree : ∀ f ∈ previous, f.group ≠ group := fun f hf h => hgroup ⟨f, hf, h⟩
    rw [if_neg hgroup]
    by_cases hcontainer : ∃ f ∈ previous, f.containerType = containerType group
    · rw [if_pos hcontainer, Option.some.injEq]
      simp only [hgroup, hcontainer, false_and, false_or, true_and]
      exact ⟨fun h => ⟨hfree, h.symm⟩, fun h => h.2.symm⟩
    · rw [if_neg hcontainer]
      simp [hgroup, hcontainer]

theorem groupFree_iff : s.GroupFree r ↔
    isIdentifier s.group ∧ clashReason? r.families s.group = none := by
  rw [clashReason?_eq_none_iff]
  simp only [List.mem_map, not_exists, not_and]
  constructor
  · exact fun h => ⟨h.identifier, h.group, h.container⟩
  · exact fun ⟨hid, hgroup, hcontainer⟩ => ⟨hid, hgroup, hcontainer⟩

/-- The checks of a base record that was read. -/
theorem checkBase_eq_error_iff (h : names.Lists r.Holds) {v : Record} {loc : Location}
    (hloc : v.loc = loc) {container : String} {next : Names → Except Stop (Family × Names)}
    (hnext : ∀ names stop, next names ≠ .error stop) :
    (if !v.hasHeader then .error (Error.missingHeader loc v.name)
      else v.expectDistinct [] >>= fun _ => names.declare loc v.name .baseRecord >>= fun names =>
        names.declare loc container .container >>= next) = .error stop ↔
      ∃ e, v.BaseDefect r container e ∧ stop = .error e := by
  subst hloc
  have hheader : v.hasHeader ↔ v.StartsWithHeader := Record.hasHeader_iff
  by_cases hv : v.StartsWithHeader
  · rw [if_neg (by simpa using hheader.2 hv)]
    simp only [bind_eq_error, Record.expectDistinct_eq_error_iff List.nodup_nil, exists_const,
      h.declare_eq_error_iff, h.declare_eq_ok_iff, hnext, and_false, or_false,
      Record.expectDistinct_eq_ok_iff List.nodup_nil]
    constructor
    · rintro (⟨f, hf, rfl⟩ | ⟨hd, ⟨kind, hkind, rfl⟩ | ⟨_, ⟨hfree, rfl⟩, hcontainer⟩⟩)
      · exact ⟨_, .field hv hf, rfl⟩
      · exact ⟨_, .name hv hd hkind, rfl⟩
      · obtain ⟨kind, hkind, rfl⟩ := (h.cons hfree).declare_eq_error_iff.1 hcontainer
        exact ⟨_, .container hv hd hfree hkind, rfl⟩
    · rintro ⟨e, hv' | ⟨-, hf⟩ | ⟨-, hd, hkind⟩ | ⟨-, hd, hfree, hkind⟩, rfl⟩
      · exact (hv' hv).elim
      · exact .inl ⟨_, hf, rfl⟩
      · exact .inr ⟨hd, .inl ⟨_, hkind, rfl⟩⟩
      · exact .inr ⟨hd, .inr ⟨_, ⟨hfree, rfl⟩,
          (h.cons hfree).declare_eq_error_iff.2 ⟨_, hkind, rfl⟩⟩⟩
  · rw [if_pos (by simpa using mt hheader.1 hv)]
    constructor
    · rintro ⟨⟩
      exact ⟨_, .header hv, rfl⟩
    · rintro ⟨e, - | ⟨hv', -⟩ | ⟨hv', -, -⟩ | ⟨hv', -, -, -⟩, rfl⟩
      · rfl
      all_goals exact (hv hv').elim

theorem groupDefect_iff {e : Error} : s.GroupDefect r e ↔
    ¬ isIdentifier s.group ∧ e = .invalidName s.loc s.group ∨
    isIdentifier s.group ∧ (s.entries = [] ∧ e = .emptyFamily s.loc s.group ∨
      s.entries ≠ [] ∧ ∃ reason, clashReason? r.families s.group = some reason ∧
        e = .duplicateFamily s.loc s.group reason) := by
  simp only [clashReason?_eq_some_iff]
  constructor
  · rintro (hid | ⟨hid, hnil⟩ | ⟨hid, hne, hf, hgroup⟩ | ⟨hid, hne, hfree, hf, hcontainer⟩)
    · exact .inl ⟨hid, rfl⟩
    · exact .inr ⟨hid, .inl ⟨hnil, rfl⟩⟩
    · exact .inr ⟨hid, .inr ⟨hne, _, .inl ⟨⟨_, hf, hgroup⟩, rfl⟩, rfl⟩⟩
    · exact .inr ⟨hid, .inr ⟨hne, _, .inr ⟨hfree, ⟨_, hf, hcontainer⟩, rfl⟩, rfl⟩⟩
  · rintro (⟨hid, rfl⟩ | ⟨hid, ⟨hnil, rfl⟩ | ⟨hne, _, ⟨⟨f, hf, hgroup⟩, rfl⟩ |
      ⟨hfree, ⟨f, hf, hcontainer⟩, rfl⟩, rfl⟩⟩)
    · exact .invalid hid
    · exact .empty hid hnil
    · exact .group hid hne hf hgroup
    · exact .container hid hne hfree hf hcontainer

/-- **Adding a base record fails exactly for a defect** of the family or of its first entry. -/
theorem addBase_eq_error_iff (h : names.Lists r.Holds) :
    addBase r.families names s = .error stop ↔
      (∃ e, s.GroupDefect r e ∧ stop = .error e) ∨
      s.GroupFree r ∧ ∃ d ds, s.entries = d :: ds ∧
        d.Defect (Record.BaseDefect r (containerType s.group)) stop := by
  simp only [groupFree_iff, groupDefect_iff, addBase, bind_eq_error, expectIdentifier_eq_error_iff,
    expectIdentifier_ok_iff, exists_const]
  by_cases hid : isIdentifier s.group
  · simp only [hid, not_true_eq_false, false_and, true_and, false_or]
    cases hentries : s.entries with
    | nil => simp [eq_comm]
    | cons d ds =>
      cases hclash : clashReason? r.families s.group with
      | some reason => simp [eq_comm]
      | none =>
        have hdone (v : Record) (names : Names) (stop : Stop) :
            (pure (⟨s.group, v, []⟩, names) : Except Stop (Family × Names)) ≠ .error stop := nofun
        rw [EntrySource.bind_eq_error_iff fun v hv => checkBase_eq_error_iff h hv (hdone v)]
        simp
  · simp [hid]

end

/-! ### Variants -/

/-- **What is wrong with a variant.** -/
inductive Record.VariantDefect (r : Registry) (v : Record) : Error → Prop
  | field {f : Field} : v.Repeats [headerMember] f →
      VariantDefect r v (.duplicateField v.loc v.name f.name)
  | collision {f : Family} {u : Record} : v.DistinctMembers [headerMember] → f ∈ r.families →
      u ∈ f.variants → discriminatorName u.name = discriminatorName v.name →
      VariantDefect r v
        (.discriminatorCollision v.loc v.name u.name (discriminatorName v.name))
  | enumerator {kind : NameKind} : v.DistinctMembers [headerMember] →
      (∀ f ∈ r.families, ∀ u ∈ f.variants, discriminatorName u.name ≠ discriminatorName v.name) →
      r.HoldsMember (discriminatorName v.name) kind →
      VariantDefect r v (.duplicateTypeName v.loc (discriminatorName v.name) kind.text)
  | name {kind : NameKind} : v.DistinctMembers [headerMember] →
      (∀ f ∈ r.families, ∀ u ∈ f.variants, discriminatorName u.name ≠ discriminatorName v.name) →
      (∀ kind, ¬ r.HoldsMember (discriminatorName v.name) kind) → r.Holds v.name kind →
      VariantDefect r v (.duplicateTypeName v.loc v.name kind.text)

section

variable {r : Registry} {tag : String}

/-- The discriminators are those of the variants. -/
theorem exists_mem_discriminators_iff (hd : r.discriminators = tagsFrom 0 r.families)
    {name : String} :
    (∃ d ∈ r.discriminators, d.name = tag ∧ d.variant = name) ↔
      ∃ f ∈ r.families, ∃ u ∈ f.variants, discriminatorName u.name = tag ∧ u.name = name := by
  rw [hd, Registry.tagsFrom_eq_placed]
  constructor
  · rintro ⟨_, hmem, rfl, rfl⟩
    obtain ⟨⟨i, f, u⟩, hplaced, rfl⟩ := List.mem_map.1 hmem
    obtain ⟨hf, hu⟩ := Registry.mem_placed_iff.1 hplaced
    exact ⟨f, List.mem_of_getElem? hf, u, hu, rfl, rfl⟩
  · rintro ⟨f, hf, u, hu, rfl, rfl⟩
    obtain ⟨i, hi⟩ := List.mem_iff_getElem?.1 hf
    exact ⟨u.tag i, List.mem_map.2 ⟨(i, f, u), Registry.mem_placed_iff.2 ⟨hi, hu⟩, rfl⟩, rfl, rfl⟩

theorem find?_discriminator_eq_none_iff (hd : r.discriminators = tagsFrom 0 r.families) :
    r.discriminators.find? (·.name = tag) = none ↔
      ∀ f ∈ r.families, ∀ u ∈ f.variants, discriminatorName u.name ≠ tag := by
  have hexists : (∃ d ∈ r.discriminators, d.name = tag) ↔
      ∃ f ∈ r.families, ∃ u ∈ f.variants, discriminatorName u.name = tag := by
    constructor
    · rintro ⟨d, hmem, htag⟩
      obtain ⟨f, hf, u, hu, htag, -⟩ :=
        (exists_mem_discriminators_iff hd).1 ⟨d, hmem, htag, rfl⟩
      exact ⟨f, hf, u, hu, htag⟩
    · rintro ⟨f, hf, u, hu, htag⟩
      obtain ⟨d, hmem, htag, -⟩ :=
        (exists_mem_discriminators_iff hd).2 ⟨f, hf, u, hu, htag, rfl⟩
      exact ⟨d, hmem, htag⟩
  have hnot := not_congr hexists
  push Not at hnot
  rw [List.find?_eq_none]
  simpa using hnot

theorem exists_find?_discriminator_iff (hc : r.Consistent)
    (hd : r.discriminators = tagsFrom 0 r.families) {name : String} :
    (∃ d, r.discriminators.find? (·.name = tag) = some d ∧ d.variant = name) ↔
      ∃ f ∈ r.families, ∃ u ∈ f.variants, discriminatorName u.name = tag ∧ u.name = name := by
  simp only [← exists_mem_discriminators_iff hd, find?_key_eq_some_iff hc.tags, and_assoc]

/-- The defects of a variant, told by what is found in the tables. -/
theorem variantDefect_iff {enumerators : Names} (henumerators : enumerators.Lists r.HoldsMember)
    (hc : r.Consistent) (hd : r.discriminators = tagsFrom 0 r.families) {v : Record} {e : Error} :
    v.VariantDefect r e ↔
      (∃ f, v.Repeats [headerMember] f ∧ e = .duplicateField v.loc v.name f.name) ∨
      v.DistinctMembers [headerMember] ∧
        ((∃ d, r.discriminators.find? (·.name = discriminatorName v.name) = some d ∧
          e = .discriminatorCollision v.loc v.name d.variant (discriminatorName v.name)) ∨
        r.discriminators.find? (·.name = discriminatorName v.name) = none ∧
          ((∃ kind, enumerators.lookup (discriminatorName v.name) = some kind ∧
            e = .duplicateTypeName v.loc (discriminatorName v.name) kind.text) ∨
          enumerators.lookup (discriminatorName v.name) = none ∧
            ∃ kind, r.Holds v.name kind ∧ e = .duplicateTypeName v.loc v.name kind.text)) := by
  simp only [find?_discriminator_eq_none_iff hd, henumerators.lookup_eq_none_iff,
    henumerators (discriminatorName v.name)]
  constructor
  · rintro (hf | ⟨hdistinct, hf, hu, htag⟩ | ⟨hdistinct, hfree, hkind⟩ |
      ⟨hdistinct, hfree, hnot, hkind⟩)
    · exact .inl ⟨_, hf, rfl⟩
    · obtain ⟨d, hfind, hname⟩ :=
        (exists_find?_discriminator_iff hc hd).2 ⟨_, hf, _, hu, htag, rfl⟩
      exact .inr ⟨hdistinct, .inl ⟨d, hfind, by rw [hname]⟩⟩
    · exact .inr ⟨hdistinct, .inr ⟨hfree, .inl ⟨_, hkind, rfl⟩⟩⟩
    · exact .inr ⟨hdistinct, .inr ⟨hfree, .inr ⟨hnot, _, hkind, rfl⟩⟩⟩
  · rintro (⟨f, hf, rfl⟩ | ⟨hdistinct, ⟨d, hfind, rfl⟩ | ⟨hfree, ⟨kind, hkind, rfl⟩ |
      ⟨hnot, kind, hkind, rfl⟩⟩⟩)
    · exact .field hf
    · obtain ⟨f, hf, u, hu, htag, hname⟩ :=
        (exists_find?_discriminator_iff hc hd).1 ⟨d, hfind, rfl⟩
      rw [← hname]
      exact .collision hdistinct hf hu htag
    · exact .enumerator hdistinct hfree hkind
    · exact .name hdistinct hfree hnot hkind

/-- **Adding a variant fails exactly for a defect.** -/
theorem addVariant_eq_error_iff {names enumerators : Names} {family : ℕ} {d : EntrySource}
    {stop : Stop} (hnames : names.Lists r.Holds) (henumerators : enumerators.Lists r.HoldsMember)
    (hc : r.Consistent) (hd : r.discriminators = tagsFrom 0 r.families) :
    addVariant enumerators family d r.discriminators names = .error stop ↔
      d.Defect (Record.VariantDefect r) stop := by
  refine EntrySource.bind_eq_error_iff fun v hv => ?_
  have hself : [headerMember].Nodup := List.nodup_singleton _
  simp only [variantDefect_iff henumerators hc hd, bind_eq_error,
    Record.expectDistinct_eq_error_iff hself, Record.expectDistinct_eq_ok_iff hself, ← hv,
    exists_const]
  cases r.discriminators.find? (·.name = discriminatorName v.name) with
  | some c => simp [or_and_right, exists_or, @eq_comm _ _ stop]
  | none =>
    cases enumerators.lookup (discriminatorName v.name) with
    | some taken => simp [or_and_right, exists_or, @eq_comm _ _ stop]
    | none =>
      simp only [bind_pure_eq_error, hnames.declare_eq_error_iff]
      simp [or_and_right, exists_or, and_assoc]

end

end NodeSchema

import NodeSchema.Proofs.Registry.FirstDefect

/-!
# Entries that are reached

A field that is not read is the first defect of a source exactly if all that is checked before its
entry builds a registry.

* `Source.Reaches`: building reaches an entry.
* `Source.build_eq_error_iff`: building stops at a field exactly if it reaches the entry of the
  field.
-/

namespace NodeSchema

/-- **Building reaches an entry**: all that is checked before it builds a registry. -/
inductive Source.Reaches (s : Source) : EntrySource → Prop
  /-- The entry of a base record, whose group is free. -/
  | base {before after : List FamilySource} {f : FamilySource} {e : EntrySource}
      {es : List EntrySource} {r : Registry} (families : s.families = before ++ f :: after)
      (entries : f.entries = e :: es)
      (checked : Source.build ⟨s.enums, before.map FamilySource.baseOnly⟩ = .ok r)
      (group : isIdentifier f.group) (clash : clashReason? r.families f.group = none) :
      s.Reaches e
  /-- The entry of a variant. -/
  | variant {before after : List FamilySource} {f : FamilySource} {e e' : EntrySource}
      {es es' : List EntrySource} {r : Registry} (families : s.families = before ++ f :: after)
      (entries : f.entries = e :: (es ++ e' :: es'))
      (checked : Source.build ⟨s.enums,
        before ++ { f with entries := e :: es } :: after.map FamilySource.baseOnly⟩ = .ok r) :
      s.Reaches e'

variable {stop : Stop}

/-! ### Defects of fields -/

theorem NameDefect.not_ofField {loc : Location} {name : String} {taken : NameKind → Prop}
    {e : Error} (h : NameDefect loc name taken e) : ¬ (Stop.error e).OfField := by
  cases h <;> exact id

theorem FamilySource.GroupDefect.not_ofField {r : Registry} {s : FamilySource} {e : Error}
    (h : s.GroupDefect r e) : ¬ (Stop.error e).OfField := by
  cases h <;> exact id

theorem Record.BaseDefect.not_ofField {r : Registry} {container : String} {v : Record} {e : Error}
    (h : v.BaseDefect r container e) : ¬ (Stop.error e).OfField := by
  cases h <;> exact id

theorem Record.VariantDefect.not_ofField {r : Registry} {v : Record} {e : Error}
    (h : v.VariantDefect r e) : ¬ (Stop.error e).OfField := by
  cases h <;> exact id

/-- If the check of the record is not about fields, only the fields of the entry are. -/
theorem EntrySource.defect_iff_stops {d : EntrySource} {check : Record → Error → Prop}
    (hcheck : ∀ v e, check v e → ¬ (Stop.error e).OfField) (hstop : stop.OfField) :
    d.Defect check stop ↔ d.Stops stop := by
  rw [← readEntry_eq_error_iff hstop]
  constructor
  · rintro (⟨hrejected, hne⟩ | hstops | ⟨-, h⟩)
    · exact readEntry_eq_error_iff_rejected.2
        ⟨hrejected, mt (readEntry_eq_error_iff Stop.ofField_aborted).1 hne⟩
    · exact (readEntry_eq_error_iff hstop).2 hstops
    · exact (hcheck _ _ h hstop).elim
  · intro h
    cases stop with
    | aborted => exact .aborted ((readEntry_eq_error_iff hstop).1 h)
    | error e =>
      obtain ⟨hrejected, hne⟩ := readEntry_eq_error_iff_rejected.1 h
      exact .rejected hrejected (mt (readEntry_eq_error_iff Stop.ofField_aborted).2 hne)

/-! ### The registry -/

namespace Source

/-- Building fails with an error of the schema, or it ends abnormally. -/
theorem failsIn_build (s : Source) : FailsIn Stop.OfSchema s.build := by
  intro stop h
  cases stop with
  | aborted => trivial
  | error e =>
    obtain ⟨d, hdefect⟩ := build_eq_error_iff_exists_firstDefect.1 h
    exact Error.isSchemaError_of_location? hdefect.location?_eq

/-- A field that is not read is the first defect exactly if its entry is reached. -/
theorem exists_firstDefect_iff {s : Source} (hstop : stop.OfField) :
    (∃ d, s.FirstDefect d stop) ↔ ∃ e, s.Reaches e ∧ e.Stops stop := by
  have hbase {r : Registry} {container : String} {d : EntrySource} :
      d.Defect (Record.BaseDefect r container) stop ↔ d.Stops stop :=
    EntrySource.defect_iff_stops (fun _ _ => Record.BaseDefect.not_ofField) hstop
  have hvariant {r : Registry} {d : EntrySource} :
      d.Defect (Record.VariantDefect r) stop ↔ d.Stops stop :=
    EntrySource.defect_iff_stops (fun _ _ => Record.VariantDefect.not_ofField) hstop
  constructor
  · rintro ⟨d, ⟨-, -, hdefect⟩ | ⟨-, -, -, hdefect⟩ | ⟨-, -, hdefect⟩ |
      ⟨hfamilies, hentries, hgives, hfree, hdefect⟩ | ⟨hfamilies, hentries, hgives, hdefect⟩⟩
    · exact (hdefect.not_ofField hstop).elim
    · exact (hdefect.not_ofField hstop).elim
    · exact (hdefect.not_ofField hstop).elim
    · obtain ⟨hgroup, hclash⟩ := groupFree_iff.1 hfree
      exact ⟨_, .base hfamilies hentries (build_of_declares hgives.1 hgives.2) hgroup hclash,
        hbase.1 hdefect⟩
    · exact ⟨_, .variant hfamilies hentries (build_of_declares hgives.1 hgives.2),
        hvariant.1 hdefect⟩
  · rintro ⟨e, ⟨hfamilies, hentries, hchecked, hgroup, hclash⟩ |
      ⟨hfamilies, hentries, hchecked⟩, he⟩
    · exact ⟨_, .base hfamilies hentries (gives_of_build hchecked)
        (groupFree_iff.2 ⟨hgroup, hclash⟩) (hbase.2 he)⟩
    · exact ⟨_, .variant hfamilies hentries (gives_of_build hchecked) (hvariant.2 he)⟩

/-- **Building stops at a field exactly if it reaches the entry of the field.** -/
theorem build_eq_error_iff {s : Source} (hstop : stop.OfField) :
    s.build = .error stop ↔ ∃ e, s.Reaches e ∧ e.Stops stop :=
  build_eq_error_iff_exists_firstDefect.trans (exists_firstDefect_iff hstop)

end Source

end NodeSchema

import NodeSchema.Proofs.Format.Lines
import NodeSchema.Proofs.Registry.Reached

/-!
# What becomes of a text

A text in the line format is a registry, or it has a defect. The first defect is reported as an
error of the schema, with one exception: a field that ends wide.

Markers are counted without a bound here. For a program that counts them in one byte, what follows is
about the texts in which no field has more than `TypeSpec.maxDepth` markers.

* `readLines_outcome`: **the outcomes of loading a text**, and when it ends abnormally.
* `readLines_wide`: a text for which it does.
* `readLines_ne_aborted`: it does not for a text of characters of one byte.
-/

namespace NodeSchema

open Text

theorem failsIn_readHeader (loc : Location) (rest : List Char) :
    FailsIn Stop.Structural (readHeader loc rest) := by
  unfold readHeader
  cases [']'].isSuffixOf? rest with
  | none => exact failsIn_error ⟨rfl, id⟩
  | some group =>
    simp only
    cases trim group with
    | nil => exact failsIn_error ⟨rfl, id⟩
    | cons c s => exact failsIn_ok _

theorem failsIn_readEnum (loc : Location) (line rest : List Char) :
    FailsIn Stop.Structural (readEnum loc line rest) := by
  unfold readEnum
  cases cut ':' rest with
  | none => exact failsIn_error ⟨rfl, id⟩
  | some parts => exact failsIn_ok _

theorem failsIn_readDirective (loc : Location) (line : List Char) :
    FailsIn Stop.Structural (readDirective loc line) := by
  unfold readDirective
  cases "[".toList.isPrefixOf? line with
  | some rest => exact failsIn_readHeader loc rest
  | none =>
    simp only
    cases "enum ".toList.isPrefixOf? line with
    | some rest => exact failsIn_readEnum loc line rest
    | none => exact failsIn_ok _

theorem failsIn_addLine (s : Source) (line : Location × List Char) :
    FailsIn Stop.Structural (s.addLine line) := by
  refine (failsIn_readDirective line.1 line.2).bind fun directive => ?_
  cases directive with
  | family group => exact failsIn_ok _
  | enum name members => exact failsIn_ok _
  | entry text =>
    simp only [Source.addEntry]
    cases s.families.getLast? with
    | none => exact failsIn_error ⟨rfl, id⟩
    | some f => exact failsIn_ok _

/-- The lines are collected, or the first that cannot be read is reported. -/
theorem failsIn_readSource (source text : String) :
    FailsIn Stop.Structural (readSource source text) := by
  unfold readSource
  generalize (∅ : Source) = s
  induction significantLines source text generalizing s with
  | nil => exact failsIn_ok s
  | cons line ls ih => exact (failsIn_addLine s line).bind ih

theorem readLines_eq_error_iff {source text : String} {stop : Stop} (hstop : stop.OfField) :
    readLines source text = .error stop ↔
      ∃ s e, readSource source text = .ok s ∧ s.Reaches e ∧ e.Stops stop := by
  unfold readLines
  rw [(failsIn_readSource source text).bind_eq_error_iff hstop]
  simp only [Source.build_eq_error_iff hstop, exists_and_left]

/-- **The outcomes of loading.** A text is a registry, an error of the schema is reported, or
loading ends abnormally. A field that is not well formed is reported as malformed, with the location
of its entry, exactly if its entry is reached before any other defect. Only if the last character of
the field outside words takes more than one byte, loading ends abnormally instead. What a count of
markers in one byte does with more than `TypeSpec.maxDepth` of them is not part of this. -/
theorem readLines_outcome (source text : String) :
    ((∃ r, readLines source text = .ok r) ∨
      (∃ e, readLines source text = .error (.error e) ∧ e.isSchemaError) ∨
      readLines source text = .error .aborted) ∧
    (∀ loc field fault, readLines source text = .error (Error.malformedField loc field fault) ↔
      ∃ s e, readSource source text = .ok s ∧ s.Reaches e ∧
        e.Stops (Error.malformedField loc field fault)) ∧
    (readLines source text = .error .aborted ↔
      ∃ s e, readSource source text = .ok s ∧ s.Reaches e ∧ e.Stops .aborted) ∧
    ∀ loc field,
      ((∃ f, readField loc field = .ok f ∧ f.WellFormed) ∨
        (∃ shown fault, readField loc field =
          .error (Error.malformedField loc shown (FieldFault.text fault))) ∨
        readField loc field = .error .aborted) ∧
      (readField loc field = .error .aborted ↔ EndsWide (trim field.toList)) := by
  refine ⟨?_, ?_, readLines_eq_error_iff trivial, ?_⟩
  · have hfails : FailsIn Stop.OfSchema (readLines source text) :=
      (failsIn_readSource source text).ofSchema.bind Source.failsIn_build
    cases h : readLines source text with
    | ok r => exact .inl ⟨r, rfl⟩
    | error stop =>
      cases stop with
      | error e => exact .inr (.inl ⟨e, rfl, hfails _ h⟩)
      | aborted => exact .inr (.inr rfl)
  · exact fun loc field fault => readLines_eq_error_iff trivial
  · exact fun loc field => ⟨readField_cases loc field, readField_eq_aborted_iff⟩

/-- Loading a text ends abnormally. -/
theorem readLines_wide :
    readLines "bad.schema" "[expr]\nExpr : Node self, Token é\n" = .error .aborted := by
  decide +kernel

/-! ### Texts of characters of one byte -/

/-- An entry that ends abnormally has a character of more than one byte. -/
theorem EntrySource.Stops.exists_wide {e : EntrySource} (h : e.Stops .aborted) :
    ∃ c ∈ e.text.toList, 0x80 ≤ c.toNat := by
  obtain ⟨front, rest, hcut, -, -, before, field, after, hsplit, -, hread⟩ := h
  obtain ⟨hentry, -⟩ := eq_of_cut_eq_some hcut
  obtain ⟨start, c, name, hfield, hwide, -⟩ := readField_eq_aborted_iff.1 hread
  have htrim : c ∈ trim field := by
    rw [String.toList_ofList] at hfield
    simp [hfield]
  have hpiece : field ∈ rest.splitOn ',' := by simp [hsplit]
  have hrest : c ∈ rest := mem_of_mem_splitOn hpiece (mem_of_mem_trim htrim)
  exact ⟨c, by simp [hentry, hrest], hwide⟩

/-- An entry that is reached is an entry of a family. -/
theorem Source.Reaches.exists_family {s : Source} {e : EntrySource} (h : s.Reaches e) :
    ∃ f ∈ s.families, e ∈ f.entries := by
  rcases h with @⟨before, after, f, _, es, r, families, entries⟩ |
    @⟨before, after, f, e₀, _, es, es', r, families, entries⟩
  · exact ⟨f, by simp [families], by simp [entries]⟩
  · exact ⟨f, by simp [families], by simp [entries]⟩

/-- The entries are made of these characters. -/
def Source.MadeOf (s : Source) (cs : List Char) : Prop :=
  ∀ f ∈ s.families, ∀ e ∈ f.entries, ∀ c ∈ e.text.toList, c ∈ cs

/-- The text of an entry is its line. -/
theorem eq_of_readDirective_entry {loc : Location} {line : List Char} {text : String}
    (h : readDirective loc line = .ok (.entry text)) : text = String.ofList line := by
  unfold readDirective at h
  split at h
  · unfold readHeader at h
    split at h
    · cases h
    · split at h <;> cases h
  · split at h
    · unfold readEnum at h
      split at h <;> cases h
    · cases h
      rfl

theorem Source.MadeOf.addLine {s s' : Source} {cs : List Char} (h : s.MadeOf cs)
    {line : Location × List Char} (hline : ∀ c ∈ line.2, c ∈ cs) (hs : s.addLine line = .ok s') :
    s'.MadeOf cs := by
  rw [addLine_eq] at hs
  obtain ⟨directive, hread, hs⟩ := bind_eq_ok.1 hs
  cases directive with
  | family group =>
    cases hs
    intro f hf
    rcases List.mem_append.1 hf with hf | hf
    · exact h f hf
    · rw [List.mem_singleton.1 hf]
      simp
  | enum name members =>
    cases hs
    exact h
  | entry text =>
    obtain rfl := eq_of_readDirective_entry hread
    simp only [addDirective, addEntry] at hs
    split at hs
    · cases hs
    · rename_i f hlast
      cases hs
      have hmem : f ∈ s.families := List.mem_of_getLast? hlast
      intro g hg
      rcases List.mem_append.1 hg with hg | hg
      · exact h g (List.dropLast_subset _ hg)
      · rw [List.mem_singleton.1 hg]
        intro e he
        rcases List.mem_append.1 he with he | he
        · exact h f hmem e he
        · rw [List.mem_singleton.1 he, String.toList_ofList]
          exact hline

theorem mem_of_mem_lineContents {text : String} {line : List Char} (h : line ∈ lineContents text) :
    ∀ c ∈ line, c ∈ text.toList := by
  obtain ⟨raw, hraw, rfl⟩ := List.mem_map.1 (List.mem_filter.1 h).1
  intro c hc
  exact mem_of_mem_splitOn hraw ((List.takeWhile_prefix _).subset (mem_of_mem_trim hc))

theorem madeOf_foldlM {cs : List Char} {ls : List (Location × List Char)} {s s' : Source}
    (h : s.MadeOf cs) (hls : ∀ line ∈ ls, ∀ c ∈ line.2, c ∈ cs)
    (hs : ls.foldlM Source.addLine s = .ok s') : s'.MadeOf cs := by
  induction ls generalizing s with
  | nil =>
    cases hs
    exact h
  | cons line ls ih =>
    obtain ⟨hline, hls⟩ := List.forall_mem_cons.1 hls
    obtain ⟨s₁, h₁, hs⟩ := bind_eq_ok.1 hs
    exact ih (h.addLine hline h₁) hls hs

/-- What is collected from a text is made of its characters. -/
theorem madeOf_readSource {source text : String} {s : Source} (h : readSource source text = .ok s) :
    s.MadeOf text.toList := by
  have hempty : Source.empty.MadeOf text.toList := by
    intro f hf
    cases hf
  refine madeOf_foldlM hempty (fun line hline => ?_) h
  refine mem_of_mem_lineContents ?_
  rw [← significantLines_snd source]
  exact List.mem_map_of_mem hline

/-- **A text of characters of one byte is never loaded abnormally.** -/
theorem readLines_ne_aborted {source text : String} (h : ∀ c ∈ text.toList, c.toNat < 0x80) :
    readLines source text ≠ .error .aborted := by
  intro habort
  have hfield : Stop.aborted.OfField := trivial
  obtain ⟨s, e, hs, hreach, hstop⟩ := (readLines_eq_error_iff hfield).1 habort
  obtain ⟨f, hf, he⟩ := hreach.exists_family
  obtain ⟨c, hc, hwide⟩ := hstop.exists_wide
  have hlow := h c (madeOf_readSource hs f hf e he c hc)
  omega

end NodeSchema

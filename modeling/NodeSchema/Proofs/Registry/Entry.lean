import NodeSchema.Format.Printer
import NodeSchema.Proofs.Except
import NodeSchema.Proofs.Field.Printing
import NodeSchema.Proofs.Registry.Build
import NodeSchema.Proofs.Registry.Relocation

/-!
# Entries that are printed and read again

A record that was read has an identifier for a name and well-formed fields. Its printed entry is
read as the record again, with or without the blank that a record without fields has at its end.

* `wellFormed_of_readEntry`: what is read is well formed.
* `Registry.depth_le_of_build`: as long as the markers of every field fit in one byte, so does the
  depth of every type of the registry. Beyond that, a depth in one byte is not followed.
* `Record.WellFormed.readEntry_toEntry`: **a printed record is read as itself.**
* `Registry.WellFormed`: what is known of a registry that was built.
-/

namespace NodeSchema

open Text

/-- The record has an identifier for a name and well-formed fields. -/
structure Record.WellFormed (v : Record) : Prop where
  name : isIdentifier v.name
  field : ∀ f ∈ v.fields, f.WellFormed

/-- What is read is well formed. -/
theorem wellFormed_of_readEntry {loc : Location} {entry : String} {v : Record}
    (h : readEntry loc entry = .ok v) : v.WellFormed := by
  obtain ⟨hid, front, rest, -, hfields⟩ := pieces_of_readEntry h
  refine ⟨hid, fun f hf => ?_⟩
  obtain ⟨piece, -, hpiece⟩ := hfields f hf
  exact wellFormed_of_readField hpiece

/-- No field of an entry has more pointer markers than one byte counts. -/
def MarkersFit (entry : List Char) : Prop :=
  ∀ front rest, entry = front ++ ':' :: rest → ':' ∉ front →
    ∀ piece ∈ rest.splitOn ',', piece.count '*' ≤ TypeSpec.maxDepth

/-- If the markers of an entry fit, then so do the depths of the types that are read from it. -/
theorem depth_le_of_readEntry {loc : Location} {entry : String} {v : Record}
    (hfit : MarkersFit entry.toList) (h : readEntry loc entry = .ok v) :
    ∀ f ∈ v.fields, f.type.depth ≤ TypeSpec.maxDepth := by
  intro f hf
  obtain ⟨-, front, rest, hcut, hfields⟩ := pieces_of_readEntry h
  obtain ⟨hentry, hfront⟩ := cut_eq_some_iff.1 hcut
  obtain ⟨piece, hpiece, hread⟩ := hfields f hf
  have hcount := depth_le_of_readField hread
  rw [String.toList_ofList] at hcount
  exact hcount.trans (hfit front rest hentry hfront piece hpiece)

/-- The fields of an entry, as they are printed after the colon. -/
def printedFields (fields : List Field) : List Char :=
  [','].intercalate (fields.map fun f => ' ' :: (toString f).toList)

theorem toList_toEntry (v : Record) :
    v.toEntry.toList = v.name.toList ++ [' ', ':'] ++
      ' ' :: [',', ' '].intercalate (v.fields.map fun f => (toString f).toList) := by
  simp [Record.toEntry, String.toList_append, String.toList_intercalate, Function.comp_def]

/-- A printed entry ends in a blank if there are no fields. -/
theorem exists_toList_toEntry (v : Record) : ∃ b, (∀ c ∈ b, isBlank c) ∧
    v.toEntry.toList = v.name.toList ++ [' ', ':'] ++ printedFields v.fields ++ b := by
  by_cases hne : v.fields = []
  · refine ⟨[' '], isBlank_of_mem_space, ?_⟩
    rw [toList_toEntry, hne]
    simp [printedFields]
  · refine ⟨[], by simp, ?_⟩
    rw [toList_toEntry, cons_intercalate (by simpa using hne), List.map_map, List.append_nil]
    rfl

namespace Record.WellFormed

variable {v : Record}

theorem readFields_printed (h : v.WellFormed) {b : List Char} (hb : ∀ c ∈ b, isBlank c)
    (loc : Location) :
    readFields loc (String.ofList (printedFields v.fields ++ b)) = .ok v.fields := by
  unfold readFields
  rw [String.toList_ofList]
  rcases List.eq_nil_or_concat v.fields with hnil | ⟨fs, f, hfs⟩
  · have hblank : (printedFields v.fields ++ b).all isBlank := by
      rw [hnil]
      simpa [printedFields] using hb
    rw [if_pos hblank, hnil]
  · rw [List.concat_eq_append] at hfs
    have hf : ∀ g ∈ fs ++ [f], g.WellFormed := hfs ▸ h.field
    have hcomma : ∀ g ∈ fs ++ [f], ',' ∉ ' ' :: (toString g).toList := fun g hg =>
      List.not_mem_cons_of_ne_of_not_mem (by decide)
        ((hf g hg).not_mem_toString (by decide) (by decide) (by decide))
    have hlast : ',' ∉ ' ' :: (toString f).toList ++ b := by
      intro hmem
      rcases List.mem_append.1 hmem with hmem | hmem
      · exact hcomma f (by simp) hmem
      · exact absurd (hb _ hmem) (by decide)
    have hprint : printedFields v.fields ++ b =
        (fs.map fun g => ' ' :: (toString g).toList).flatMap (· ++ [',']) ++
          (' ' :: (toString f).toList ++ b) := by
      rw [printedFields, hfs, List.map_append, List.map_singleton, intercalate_concat,
        List.append_assoc]
    have hblank : ¬ (printedFields v.fields ++ b).all isBlank := by
      obtain ⟨s, c, hs, hc⟩ := (hf f (by simp)).exists_concat
      rw [hprint, hs, List.all_eq_true]
      intro hall
      have hblank : isBlank c := hall c (by simp)
      rw [isBlank_of_isWordChar hc] at hblank
      cases hblank
    have hpieces : ∀ p ∈ fs.map fun g => ' ' :: (toString g).toList, ',' ∉ p := by
      intro p hp
      obtain ⟨g, hg, rfl⟩ := List.mem_map.1 hp
      exact hcomma g (by simp [hg])
    rw [if_neg hblank, hprint, splitOn_flatMap_concat hpieces hlast, hfs, mapM_eq_ok]
    refine List.rel_append ?_ (.cons ?_ .nil)
    · rw [List.forall₂_map_left_iff, List.forall₂_same]
      intro g hg
      have hread := (hf g (by simp [hg])).readField_around (b := [])
        isBlank_of_mem_space (by simp) loc
      rwa [List.append_nil] at hread
    · exact (hf f (by simp)).readField_around isBlank_of_mem_space hb loc

/-- **A printed record is read as itself**, also with other blanks at its end. -/
theorem readEntry_printed (h : v.WellFormed) {b : List Char} (hb : ∀ c ∈ b, isBlank c)
    (loc : Location) :
    readEntry loc (String.ofList (v.name.toList ++ [' ', ':'] ++ printedFields v.fields ++ b)) =
      .ok (v.relocate fun _ => loc) := by
  have hname : isWord v.name.toList := h.name
  have hcut : cut ':' (v.name.toList ++ [' ', ':'] ++ printedFields v.fields ++ b) =
      some (v.name.toList ++ [' '], printedFields v.fields ++ b) := by
    have hcolon : ':' ∉ v.name.toList ++ [' '] := by
      simpa using not_mem_of_isWord hname (c := ':') (by decide)
    have := cut_append_cons hcolon (printedFields v.fields ++ b)
    simpa using this
  have htrim : trim (v.name.toList ++ [' ']) = v.name.toList := by
    have := trim_append_of_blank (a := []) (s := v.name.toList) (by simp) isBlank_of_mem_space
    rwa [List.nil_append, trim_of_isWord hname] at this
  obtain ⟨c, s, hs, -, -⟩ := exists_cons_of_isWord hname
  have hexpect : expectIdentifier loc v.name = .ok () := expectIdentifier_ok_iff.2 h.name
  rw [readEntry, String.toList_ofList, hcut]
  simp only [htrim.trans hs]
  rw [← hs, String.ofList_toList, hexpect, h.readFields_printed hb]
  rfl

/-- Words, blanks, pointer markers and the two separators are all that is printed. -/
theorem not_mem_toEntry (h : v.WellFormed) {c : Char} (hword : isWordChar c = false)
    (hc : c ∉ " *:,".toList) : c ∉ v.toEntry.toList := by
  obtain ⟨hspace, hstar, hcolon, hcomma⟩ : c ≠ ' ' ∧ c ≠ '*' ∧ c ≠ ':' ∧ c ≠ ',' := by
    simpa using hc
  have hname : c ∉ v.name.toList := not_mem_of_isWord h.name hword
  have hfields : c ∉ [',', ' '].intercalate (v.fields.map fun f => (toString f).toList) := by
    refine not_mem_intercalate (by simp [hspace, hcomma]) fun p hp => ?_
    obtain ⟨f, hf, rfl⟩ := List.mem_map.1 hp
    exact (h.field f hf).not_mem_toString hword hspace hstar
  rw [toList_toEntry]
  simp [hname, hfields, hspace, hcolon]

theorem readEntry_toEntry (h : v.WellFormed) (loc : Location) :
    readEntry loc v.toEntry = .ok (v.relocate fun _ => loc) := by
  obtain ⟨b, hb, htext⟩ := exists_toList_toEntry v
  have hread := h.readEntry_printed hb loc
  rwa [← htext, String.ofList_toList] at hread

theorem trim_printed (h : v.WellFormed) :
    trim (v.name.toList ++ [' ', ':'] ++ printedFields v.fields) =
      v.name.toList ++ [' ', ':'] ++ printedFields v.fields := by
  refine trim_eq_self ?_ ?_
  · obtain ⟨c, s, hs, hc, -⟩ := exists_cons_of_isWord h.name
    rw [hs]
    simpa using isBlank_of_isWordChar (isWordChar_of_isWordStart hc)
  · rcases List.eq_nil_or_concat v.fields with hnil | ⟨fs, f, hfs⟩
    · rw [hnil, printedFields, List.map_nil, List.intercalate_nil, List.append_nil,
        List.append_cons, List.getLast?_concat]
      simp only [Option.mem_some, forall_eq']
      rfl
    · rw [List.concat_eq_append] at hfs
      obtain ⟨s, c, hs, hc⟩ := (h.field f (by simp [hfs])).exists_concat
      rw [printedFields, hfs, List.map_append, List.map_singleton, intercalate_concat, hs,
        ← List.cons_append, ← List.append_assoc, ← List.append_assoc, List.getLast?_concat]
      simpa using isBlank_of_isWordChar hc

/-- A printed entry without the blank at its end. -/
theorem toList_trimmed_toEntry (h : v.WellFormed) :
    (trimmed v.toEntry).toList = v.name.toList ++ [' ', ':'] ++ printedFields v.fields := by
  obtain ⟨b, hb, htext⟩ := exists_toList_toEntry v
  have htrim := trim_append_of_blank (a := [])
    (s := v.name.toList ++ [' ', ':'] ++ printedFields v.fields)
    (by simp) hb
  rw [toList_trimmed, htext]
  exact htrim.trans h.trim_printed

theorem readEntry_trimmed_toEntry (h : v.WellFormed) (loc : Location) :
    readEntry loc (trimmed v.toEntry) = .ok (v.relocate fun _ => loc) := by
  have hread := h.readEntry_printed (b := []) (by simp) loc
  rwa [List.append_nil, ← h.toList_trimmed_toEntry, String.ofList_toList] at hread

end Record.WellFormed

/-! ### Registries -/

/-- **A registry as it is built**: it is consistent, and its records were read. -/
structure Registry.WellFormed (r : Registry) : Prop where
  consistent : r.Consistent
  discriminators : r.discriminators = tagsFrom 0 r.families
  record : ∀ f ∈ r.families, ∀ v ∈ f.base :: f.variants, v.WellFormed

theorem Registry.wellFormed_of_build {s : Source} {r : Registry} (h : s.build = .ok r) :
    r.WellFormed := by
  obtain ⟨hdecl, hconsistent⟩ := Source.declares_of_build h
  refine ⟨hconsistent, hdecl.discriminators, fun f hf v hv => ?_⟩
  obtain ⟨_, -, e, -, he⟩ := hdecl.exists_entry hf hv
  exact wellFormed_of_readEntry he

/-- **If the markers of all entries fit in one byte, the registry has no type that is deeper.** -/
theorem Registry.depth_le_of_build {s : Source} {r : Registry}
    (hfit : ∀ f ∈ s.families, ∀ e ∈ f.entries, MarkersFit e.text.toList) (h : s.build = .ok r) :
    ∀ f ∈ r.families, ∀ v ∈ f.base :: f.variants, ∀ member ∈ v.fields,
      member.type.depth ≤ TypeSpec.maxDepth := by
  intro f hf v hv
  obtain ⟨s', hs', e, he, hdecl⟩ := (Source.declares_of_build h).1.exists_entry hf hv
  exact depth_le_of_readEntry (hfit s' hs' e he) hdecl

end NodeSchema

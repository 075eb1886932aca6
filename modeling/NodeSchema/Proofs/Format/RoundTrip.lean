import NodeSchema.Proofs.Format.Document
import NodeSchema.Proofs.Registry.Build
import NodeSchema.Proofs.Registry.Entry

/-!
# Registries that are printed and read again

The lines of a registry are those of a document (`Registry.toDocument`), and everything in them is
an identifier or made of identifiers, so the document can be written. What is read from its text
declares the registry again, and the registry is still consistent, so it is built again.

One name is in the way: a record of the name `enum` would be printed as the line of an enum.

* `Registry.Printable.build_definitions`: the definitions that are printed build the registry.
* `read_print`: **a registry that is printed is read as itself**, and so are its records and fields.
-/

namespace NodeSchema

open Text

variable {r : Registry}

/-! ### The registry as a document -/

theorem onLine_of_isIdentifier {name : String} (h : isIdentifier name) : Document.OnLine name :=
  ⟨not_mem_of_isWord h (by decide), not_mem_of_isWord h (by decide)⟩

theorem trimmed_ne_of_isIdentifier {name : String} (h : isIdentifier name) :
    trimmed name ≠ "" := by
  rw [trimmed_of_isIdentifier h]
  rintro rfl
  exact absurd h (by decide)

/-- The entry of a record of another name than `enum` does not look like the line of an enum. -/
theorem Record.WellFormed.entry_line {v : Record} (h : v.WellFormed) (hname : v.name ≠ "enum") :
    ¬ "[".toList <+: (trimmed v.toEntry).toList ∧
      ¬ "enum ".toList <+: (trimmed v.toEntry).toList := by
  rw [h.toList_trimmed_toEntry]
  constructor
  · obtain ⟨c, s, hs, hc, -⟩ := exists_cons_of_isWord h.name
    rw [hs]
    rintro ⟨rest, hrest⟩
    obtain ⟨rfl, -⟩ := List.cons_eq_cons.1 hrest
    exact absurd hc (by decide)
  · rintro ⟨rest, hrest⟩
    have hspace : ' ' ∉ v.name.toList := not_mem_of_isWord h.name (by decide)
    -- the first blank ends both words
    have hsplit : "enum".toList ++ ' ' :: rest =
        v.name.toList ++ ' ' :: (':' :: printedFields v.fields) := by
      simpa using hrest
    obtain ⟨hword, -⟩ := append_cons_inj (by decide) hspace hsplit
    exact hname (String.toList_inj.1 hword.symm)

namespace Registry

/-- The document that holds a registry. -/
def toDocument (r : Registry) : Document where
  enums := r.enums.map fun e => (e.name, e.members)
  families := r.families.map fun f => (f.group, (f.base :: f.variants).map Record.toEntry)

theorem toLines_toDocument (r : Registry) : r.toDocument.toLines = r.toLines := by
  simp [Document.toLines, toDocument, toLines, Document.enumLine, Document.familyLines,
    List.flatMap_map, Function.comp_def]
  rfl

/-- **A registry that can be printed**: no record has the name that starts the line of an enum. -/
structure Printable (r : Registry) : Prop extends r.WellFormed where
  not_enum : ∀ f ∈ r.families, ∀ v ∈ f.base :: f.variants, v.name ≠ "enum"

namespace Printable

theorem writable (h : r.Printable) : r.toDocument.Writable where
  enum_name p hp := by
    obtain ⟨e, he, rfl⟩ := List.mem_map.1 hp
    have hid := (h.consistent.enum_names e he).1
    exact ⟨onLine_of_isIdentifier hid, not_mem_of_isWord hid (by decide)⟩
  member p hp m hm := by
    obtain ⟨e, he, rfl⟩ := List.mem_map.1 hp
    have hid := (h.consistent.enum_names e he).2 m hm
    exact ⟨onLine_of_isIdentifier hid, not_mem_of_isWord hid (by decide),
      trimmed_ne_of_isIdentifier hid⟩
  group p hp := by
    obtain ⟨f, hf, rfl⟩ := List.mem_map.1 hp
    have hid := h.consistent.group_names f hf
    exact ⟨onLine_of_isIdentifier hid, trimmed_ne_of_isIdentifier hid⟩
  entry p hp t ht := by
    obtain ⟨f, hf, rfl⟩ := List.mem_map.1 hp
    obtain ⟨v, hv, rfl⟩ := List.mem_map.1 ht
    have hwf := h.record f hf v hv
    have hfeed : '\n' ∉ v.toEntry.toList := hwf.not_mem_toEntry (by decide) (by decide)
    have hhash : '#' ∉ v.toEntry.toList := hwf.not_mem_toEntry (by decide) (by decide)
    refine ⟨⟨hfeed, hhash⟩, ?_⟩
    rw [ne_eq, ← String.toList_inj, hwf.toList_trimmed_toEntry]
    simp
  entry_line p hp t ht := by
    obtain ⟨f, hf, rfl⟩ := List.mem_map.1 hp
    obtain ⟨v, hv, rfl⟩ := List.mem_map.1 ht
    exact (h.record f hf v hv).entry_line (h.not_enum f hf v hv)

/-- **The definitions that are printed build the registry.** -/
theorem build_definitions (h : r.Printable) : r.toDocument.definitions.build = .ok r.unplaced := by
  have hentry : ∀ f ∈ r.families, ∀ v ∈ f.base :: f.variants,
      EntrySource.Declares ⟨trimmed v.toEntry, .unknown⟩ (v.relocate fun _ => .unknown) :=
    fun f hf v hv => (h.record f hf v hv).readEntry_trimmed_toEntry .unknown
  refine Source.build_of_declares ⟨?_, ?_, ?_⟩ (h.consistent.relocate _)
  · have henum : ∀ e ∈ r.enums, PreludeEnum.mk (trimmed e.name) (e.members.map trimmed) = e := by
      intro e he
      obtain ⟨hname, hmembers⟩ := h.consistent.enum_names e he
      have hmap : e.members.map trimmed = e.members :=
        (List.map_congr_left fun m hm => trimmed_of_isIdentifier (hmembers m hm)).trans
          (List.map_id _)
      rw [trimmed_of_isIdentifier hname, hmap]
    simp only [Document.definitions, toDocument, unplaced, relocate, List.map_map]
    exact ((List.map_congr_left henum).trans (List.map_id _)).symm
  · simp only [Document.definitions, toDocument, unplaced, relocate, List.map_map]
    rw [List.forall₂_map_left_iff, List.forall₂_map_right_iff, List.forall₂_same]
    intro f hf
    refine ⟨(trimmed_of_isIdentifier (h.consistent.group_names f hf)).symm, _, _, rfl,
      hentry f hf f.base List.mem_cons_self, ?_⟩
    simp only [Family.relocate, List.map_map]
    rw [List.forall₂_map_left_iff, List.forall₂_map_right_iff, List.forall₂_same]
    exact fun v hv => hentry f hf v (List.mem_cons_of_mem _ hv)
  · rw [unplaced, relocate, tagsFrom_relocate]
    exact h.discriminators

/-- A registry that is printed is read as itself, up to locations. -/
theorem readLines_toText (h : r.Printable) (source : String) :
    ∃ r', readLines source r.toText = .ok r' ∧ r'.unplaced = r.unplaced := by
  have htext : r.toDocument.toText = r.toText := by
    rw [Document.toText, toLines_toDocument, toText]
  have hlines : lineContents r.toText = lineContents r.toDocument.toText := by rw [htext]
  obtain ⟨s, hs, hdef⟩ := h.writable.readSource_eq hlines source
  obtain ⟨r', hr', hsame⟩ := s.exists_build_of_unplaced (hdef ▸ h.build_definitions)
  refine ⟨r', ?_, hsame⟩
  rw [readLines, hs]
  exact hr'

end Printable

end Registry

/-- **What is printed is read as itself**: fields, records, and registries up to locations. -/
theorem read_print :
    (∀ loc text f, readField loc text = .ok f → ∀ loc', readField loc' (toString f) = .ok f) ∧
    (∀ loc text v, readEntry loc text = .ok v →
      ∀ loc', readEntry loc' v.toEntry = .ok { v with loc := loc' }) ∧
    (∀ (s : Source) (r : Registry), s.build = .ok r →
      (∀ f ∈ r.families, f.base.name ≠ "enum" ∧ ∀ v ∈ f.variants, v.name ≠ "enum") →
      ∀ source, ∃ r', readLines source r.toText = .ok r' ∧ r'.unplaced = r.unplaced) := by
  refine ⟨?_, ?_, ?_⟩
  · intro loc text f h loc'
    exact (wellFormed_of_readField h).readField_toString loc'
  · intro loc text v h loc'
    exact (wellFormed_of_readEntry h).readEntry_toEntry loc'
  · intro s r h hname source
    have hprint : r.Printable := ⟨Registry.wellFormed_of_build h, fun f hf v hv => by
      rcases List.mem_cons.1 hv with rfl | hv
      · exact (hname f hf).1
      · exact (hname f hf).2 v hv⟩
    exact hprint.readLines_toText source

/-! ### Operators -/

/-- Two enums, one of them without members, and a family with a variant without fields. -/
def operatorSource : Source where
  enums := [⟨"Operator", ["PLUS", "MINUS"], .unknown⟩, ⟨"Flag", [], .unknown⟩]
  families :=
    [⟨"expr",
      [ ⟨"Expr : Node self, int depth", .unknown⟩
        , ⟨"Nil:", .unknown⟩
        , ⟨"Binary: struct  Expr * *left,Operator op", .unknown⟩ ], .unknown⟩]

/-- The registry of the operators. -/
def operatorRegistry : Registry where
  enums := [⟨"Operator", ["PLUS", "MINUS"]⟩, ⟨"Flag", []⟩]
  families :=
    [ { group := "expr"
        base :=
          ⟨"Expr", [⟨.value nodeHeaderName, headerMember⟩, ⟨.value "int", "depth"⟩], .unknown⟩
        variants :=
          [ ⟨"Nil", [], .unknown⟩
            , ⟨"Binary", [⟨⟨"struct Expr", 2⟩, "left"⟩, ⟨.value "Operator", "op"⟩], .unknown⟩ ] } ]
  discriminators := [⟨"NODE_NIL", "Nil", 0⟩, ⟨"NODE_BINARY", "Binary", 0⟩]

theorem build_operatorSource : operatorSource.build = .ok operatorRegistry := by
  decide +kernel

theorem read_print_operators :
    readField .unknown "struct Expr** left" = .ok ⟨⟨"struct Expr", 2⟩, "left"⟩ ∧
    readEntry .unknown "Nil : " = .ok ⟨"Nil", [], .unknown⟩ ∧
    ∃ r', readLines "operators" operatorRegistry.toText = .ok r' ∧
      r'.unplaced = operatorRegistry.unplaced := by
  obtain ⟨hfield, hentry, hregistry⟩ := read_print
  refine ⟨?_, ?_, ?_⟩
  · exact hfield .unknown " struct Expr * *left" ⟨⟨"struct Expr", 2⟩, "left"⟩ (by decide +kernel) _
  · exact hentry (.builtin "expr" 1) "Nil:" ⟨"Nil", [], .builtin "expr" 1⟩ (by decide +kernel)
      .unknown
  · exact hregistry operatorSource operatorRegistry build_operatorSource (by decide) "operators"

end NodeSchema

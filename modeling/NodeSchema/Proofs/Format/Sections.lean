import NodeSchema.Proofs.Format.Lines

/-!
# Sections

A line says one of three things, and how it starts tells which (`Says`). The lines of a text make up
sections: a header opens a family, and the entries up to the next header are those of the family.
Lines of enums are in no section, wherever they stand.

* `readDirective_eq_ok_iff`, `readDirective_eq_error_iff`: what a line says, and what is reported of
  a line that says nothing.
* `Source.ofDirectives`: the definitions of lines by sections.
* `readSource_eq_ok_iff`: **a text is collected by sections**, if all its lines say something and no
  entry stands before the first header.
-/

namespace NodeSchema

open Text

/-! ### Lines -/

/-- The members that the line of an enum lists. -/
def listedMembers (members : List Char) : List String :=
  (((members.splitOn ',').map trim).filter fun m => !m.isEmpty).map String.ofList

/-- **What a line says.** -/
inductive Says : List Char → Directive → Prop
  | family {inner : List Char} : trim inner ≠ [] →
      Says ('[' :: (inner ++ [']'])) (.family (String.ofList (trim inner)))
  | enum {name members : List Char} : ':' ∉ name →
      Says ("enum ".toList ++ (name ++ ':' :: members))
        (.enum (String.ofList name) (listedMembers members))
  | entry {line : List Char} : ¬ "[".toList <+: line → ¬ "enum ".toList <+: line →
      Says line (.entry (String.ofList line))

/-- What can be wrong with the format of a line. -/
inductive LineFault
  /-- A header without its closing bracket. -/
  | unterminated
  /-- A header without a group. -/
  | unnamed
  /-- An entry before the first header. -/
  | outside

/-- The error of a fault at a place. -/
def LineFault.error (loc : Location) : LineFault → Error
  | unterminated => .schemaFormat loc.file (some s!"unterminated family header at {loc}")
  | unnamed => .schemaFormat loc.file (some s!"empty family name at {loc}")
  | outside => .schemaFormat loc.file (some s!"entry outside of a [family] section at {loc}")

/-- **What is reported of a line that says nothing.** -/
inductive Unreadable (loc : Location) : List Char → Error → Prop
  | unterminated {rest : List Char} : ¬ [']'] <:+ rest →
      Unreadable loc ('[' :: rest) (LineFault.unterminated.error loc)
  | unnamed {inner : List Char} : trim inner = [] →
      Unreadable loc ('[' :: (inner ++ [']'])) (LineFault.unnamed.error loc)
  | separator {rest : List Char} : ':' ∉ rest →
      Unreadable loc ("enum ".toList ++ rest)
        (.missingSeparator loc (String.ofList ("enum ".toList ++ rest)))

variable {loc : Location} {line : List Char} {directive : Directive}

/-- A line is the header of a family, the line of an enum, or an entry. -/
theorem line_cases (line : List Char) :
    (∃ rest, line = '[' :: rest) ∨ (∃ rest, line = "enum ".toList ++ rest) ∨
      ¬ "[".toList <+: line ∧ ¬ "enum ".toList <+: line := by
  by_cases hheader : "[".toList <+: line
  · obtain ⟨rest, rfl⟩ := hheader
    exact .inl ⟨rest, rfl⟩
  · by_cases henum : "enum ".toList <+: line
    · obtain ⟨rest, rfl⟩ := henum
      exact .inr (.inl ⟨rest, rfl⟩)
    · exact .inr (.inr ⟨hheader, henum⟩)

theorem readHeader_eq (loc : Location) (inner : List Char) :
    readHeader loc (inner ++ [']']) =
      if trim inner = [] then .error (LineFault.unnamed.error loc)
      else .ok (.family (String.ofList (trim inner))) := by
  have hsuffix : [']'].isSuffixOf? (inner ++ [']']) = some inner :=
    List.isSuffixOf?_eq_some_iff_append_eq.2 rfl
  rw [readHeader, hsuffix]
  simp only
  cases trim inner <;> rfl

theorem readHeader_of_not_suffix {rest : List Char} (h : ¬ [']'] <:+ rest) :
    readHeader loc rest = .error (LineFault.unterminated.error loc) := by
  cases hsuffix : [']'].isSuffixOf? rest with
  | none =>
    rw [readHeader, hsuffix]
    rfl
  | some inner => exact (h ⟨inner, List.isSuffixOf?_eq_some_iff_append_eq.1 hsuffix⟩).elim

/-- A line that says something is read. -/
theorem Says.readDirective_eq (h : Says line directive) (loc : Location) :
    readDirective loc line = .ok directive := by
  cases h with
  | family hne => rw [readDirective_header, readHeader_eq, if_neg hne]
  | enum hcolon =>
    rw [readDirective_enum, readEnum, cut_append_cons hcolon]
    rfl
  | entry hheader henum => exact readDirective_entry hheader henum loc

/-- A line that says nothing is reported. -/
theorem Unreadable.readDirective_eq {e : Error} (h : Unreadable loc line e) :
    readDirective loc line = .error e := by
  cases h with
  | unterminated hsuffix => rw [readDirective_header, readHeader_of_not_suffix hsuffix]
  | unnamed hnil => rw [readDirective_header, readHeader_eq, if_pos hnil]
  | separator hcolon => rw [readDirective_enum, readEnum, cut_eq_none_iff.2 hcolon]

theorem says_or_unreadable (loc : Location) (line : List Char) :
    (∃ directive, Says line directive) ∨ ∃ e, Unreadable loc line e := by
  rcases line_cases line with ⟨rest, rfl⟩ | ⟨rest, rfl⟩ | ⟨hheader, henum⟩
  · by_cases hsuffix : [']'] <:+ rest
    · obtain ⟨inner, rfl⟩ := hsuffix
      by_cases hnil : trim inner = []
      · exact .inr ⟨_, .unnamed hnil⟩
      · exact .inl ⟨_, .family hnil⟩
    · exact .inr ⟨_, .unterminated hsuffix⟩
  · cases hcut : cut ':' rest with
    | none => exact .inr ⟨_, .separator (cut_eq_none_iff.1 hcut)⟩
    | some parts =>
      obtain ⟨rfl, hcolon⟩ := eq_of_cut_eq_some hcut
      exact .inl ⟨_, .enum hcolon⟩
  · exact .inl ⟨_, .entry hheader henum⟩

/-- **What is read of a line is what it says.** -/
theorem readDirective_eq_ok_iff : readDirective loc line = .ok directive ↔ Says line directive := by
  constructor
  · intro h
    rcases says_or_unreadable loc line with ⟨said, hsaid⟩ | ⟨e, he⟩
    · rw [hsaid.readDirective_eq] at h
      cases h
      exact hsaid
    · rw [he.readDirective_eq] at h
      cases h
  · exact fun h => h.readDirective_eq loc

theorem readDirective_eq_error_iff {stop : Stop} :
    readDirective loc line = .error stop ↔ ∃ e, Unreadable loc line e ∧ stop = .error e := by
  constructor
  · intro h
    rcases says_or_unreadable loc line with ⟨said, hsaid⟩ | ⟨e, he⟩
    · rw [hsaid.readDirective_eq] at h
      cases h
    · rw [he.readDirective_eq] at h
      cases h
      exact ⟨e, he, rfl⟩
  · rintro ⟨e, he, rfl⟩
    exact he.readDirective_eq

/-- A line says one thing. -/
theorem Says.unique {other : Directive} (h : Says line directive) (h' : Says line other) :
    directive = other :=
  Except.ok.inj ((h.readDirective_eq .unknown).symm.trans (h'.readDirective_eq .unknown))

/-- An entry is its line. -/
theorem Says.entry_eq {text : String} (h : Says line (.entry text)) :
    text = String.ofList line := by
  cases h
  rfl

/-! ### Sections -/

/-- The enums of directives. -/
def enumsOf : List (Location × Directive) → List EnumSource
  | [] => []
  | (loc, .enum name members) :: ds => ⟨trimmed name, members.map trimmed, loc⟩ :: enumsOf ds
  | _ :: ds => enumsOf ds

/-- The entries before the first header. -/
def leadingEntries : List (Location × Directive) → List EntrySource
  | [] => []
  | (_, .family _) :: _ => []
  | (_, .enum _ _) :: ds => leadingEntries ds
  | (loc, .entry text) :: ds => ⟨text, loc⟩ :: leadingEntries ds

/-- The families of directives, each with the entries up to the next header. -/
def familiesOf : List (Location × Directive) → List FamilySource
  | [] => []
  | (loc, .family group) :: ds => ⟨trimmed group, leadingEntries ds, loc⟩ :: familiesOf ds
  | _ :: ds => familiesOf ds

/-- The definitions of directives, by sections. -/
def Source.ofDirectives (ds : List (Location × Directive)) : Source :=
  ⟨enumsOf ds, familiesOf ds⟩

/-- The line says the directive, at its place. -/
def SaysAt (line : Location × List Char) (d : Location × Directive) : Prop :=
  d.1 = line.1 ∧ Says line.2 d.2

/-- Adds what directives declare, with their locations. -/
def Source.place (s : Source) (ds : List (Location × Directive)) : Except Stop Source :=
  ds.foldlM (fun s d => s.addDirective d.1 d.2) s

theorem Source.place_cons (s : Source) (d : Location × Directive)
    (ds : List (Location × Directive)) :
    s.place (d :: ds) = s.addDirective d.1 d.2 >>= fun s => s.place ds :=
  rfl

/-- In a section, everything can be added. -/
theorem Source.place_concat (es : List EnumSource) (fs : List FamilySource) (f : FamilySource)
    (ds : List (Location × Directive)) :
    Source.place ⟨es, fs ++ [f]⟩ ds =
      .ok ⟨es ++ enumsOf ds,
        fs ++ { f with entries := f.entries ++ leadingEntries ds } :: familiesOf ds⟩ := by
  induction ds generalizing es fs f with
  | nil => simp [place, enumsOf, leadingEntries, familiesOf, pure, Except.pure]
  | cons d ds ih =>
    obtain ⟨loc, directive⟩ := d
    rw [place_cons]
    cases directive with
    | family group =>
      refine (ih es (fs ++ [f]) ⟨trimmed group, [], loc⟩).trans ?_
      simp [enumsOf, leadingEntries, familiesOf]
    | enum name members =>
      refine (ih (es ++ [⟨trimmed name, members.map trimmed, loc⟩]) fs f).trans ?_
      simp [enumsOf, leadingEntries, familiesOf]
    | entry text =>
      have hadd : addDirective ⟨es, fs ++ [f]⟩ loc (.entry text) =
          .ok ⟨es, fs ++ [{ f with entries := f.entries ++ [⟨text, loc⟩] }]⟩ := by
        simp [addDirective, addEntry]
      rw [hadd]
      refine (ih es fs { f with entries := f.entries ++ [⟨text, loc⟩] }).trans ?_
      simp [enumsOf, leadingEntries, familiesOf]

/-- Before the first section, no entry can be added. -/
theorem Source.place_eq_ok_iff (es : List EnumSource) (ds : List (Location × Directive))
    {t : Source} :
    Source.place ⟨es, []⟩ ds = .ok t ↔
      leadingEntries ds = [] ∧ t = ⟨es ++ enumsOf ds, familiesOf ds⟩ := by
  induction ds generalizing es with
  | nil => simp [place, enumsOf, leadingEntries, familiesOf, pure, Except.pure, eq_comm]
  | cons d ds ih =>
    obtain ⟨loc, directive⟩ := d
    rw [place_cons]
    cases directive with
    | family group =>
      have hopen := place_concat es [] ⟨trimmed group, [], loc⟩ ds
      simp only [List.nil_append] at hopen
      simp only [addDirective, addFamily, List.nil_append, ok_bind, hopen, leadingEntries, enumsOf,
        familiesOf, true_and, Except.ok.injEq]
      exact eq_comm
    | enum name members =>
      refine (ih (es ++ [⟨trimmed name, members.map trimmed, loc⟩])).trans ?_
      simp [enumsOf, leadingEntries, familiesOf]
    | entry text => simp [addDirective, addEntry, leadingEntries, error_bind]

/-- Lines are collected if all of them say something that can be added. -/
theorem foldlM_addLine_eq_ok_iff {ls : List (Location × List Char)} {s t : Source} :
    ls.foldlM Source.addLine s = .ok t ↔ ∃ ds, List.Forall₂ SaysAt ls ds ∧ s.place ds = .ok t := by
  induction ls generalizing s with
  | nil => simp [Source.place]
  | cons line ls ih =>
    obtain ⟨loc, line⟩ := line
    rw [List.foldlM_cons, Source.addLine_eq, bind_assoc, bind_eq_ok]
    constructor
    · rintro ⟨directive, hread, h⟩
      obtain ⟨s', hadd, h⟩ := bind_eq_ok.1 h
      obtain ⟨ds, hls, hplace⟩ := ih.1 h
      exact ⟨(loc, directive) :: ds, .cons ⟨rfl, readDirective_eq_ok_iff.1 hread⟩ hls,
        bind_eq_ok.2 ⟨s', hadd, hplace⟩⟩
    · rintro ⟨_, hls, hplace⟩
      obtain ⟨⟨_, directive⟩, ds, ⟨rfl, hsaid⟩, hrest, rfl⟩ := List.forall₂_cons_left_iff.1 hls
      obtain ⟨s', hadd, hplace⟩ := bind_eq_ok.1 hplace
      exact ⟨directive, hsaid.readDirective_eq _,
        bind_eq_ok.2 ⟨s', hadd, ih.2 ⟨ds, hrest, hplace⟩⟩⟩

/-- **A text is collected by sections**, if all its lines say something and no entry stands before
the first header. -/
theorem readSource_eq_ok_iff {source text : String} {s : Source} :
    readSource source text = .ok s ↔ ∃ ds, List.Forall₂ SaysAt (significantLines source text) ds ∧
      leadingEntries ds = [] ∧ s = .ofDirectives ds := by
  rw [readSource, foldlM_addLine_eq_ok_iff]
  refine exists_congr fun ds => and_congr_right fun _ => ?_
  exact Source.place_eq_ok_iff [] ds

end NodeSchema

import NodeSchema.Format.Document
import NodeSchema.Proofs.Format.Lines

/-!
# Documents in the line format

A document can be written in the line format: one line per enum, and for each family a line that
opens it and one line per entry (`Document.toText`). The format has no quotes, so the texts of the
document must not hold what divides lines, members and comments (`Document.Writable`).

* `Document.Writable.readSource_eq`: **a document that is written is read again**, up to locations.
* `Document.formats_agree`: **the line format and the JSON format agree** on what becomes of a
  document, also when it is defective.
-/

namespace NodeSchema

open Text

namespace Document

/-- The line that declares an enum. -/
def enumLine (e : String × List String) : String :=
  "enum " ++ e.1 ++ " : " ++ ", ".intercalate e.2

/-- The lines of a family: its header and its entries. -/
def familyLines (f : String × List String) : List String :=
  ("[" ++ f.1 ++ "]") :: f.2

/-- The lines of a document. -/
def toLines (d : Document) : List String :=
  d.enums.map enumLine ++ d.families.flatMap familyLines

/-- A document in the line format. -/
def toText (d : Document) : String :=
  String.join (d.toLines.map (· ++ "\n"))

/-- The text stays on its line, outside of comments. -/
def OnLine (text : String) : Prop :=
  '\n' ∉ text.toList ∧ '#' ∉ text.toList

instance (text : String) : Decidable (OnLine text) :=
  inferInstanceAs (Decidable (_ ∧ _))

/-- **What can be written in the line format.** Blanks around the texts do not count. -/
structure Writable (d : Document) : Prop where
  enum_name : ∀ e ∈ d.enums, OnLine e.1 ∧ ':' ∉ e.1.toList
  member : ∀ e ∈ d.enums, ∀ m ∈ e.2, OnLine m ∧ ',' ∉ m.toList ∧ trimmed m ≠ ""
  group : ∀ f ∈ d.families, OnLine f.1 ∧ trimmed f.1 ≠ ""
  entry : ∀ f ∈ d.families, ∀ t ∈ f.2, OnLine t ∧ trimmed t ≠ ""
  /-- An entry does not look like the other two kinds of lines. -/
  entry_line : ∀ f ∈ d.families, ∀ t ∈ f.2,
    ¬ "[".toList <+: (trimmed t).toList ∧ ¬ "enum ".toList <+: (trimmed t).toList

/-- The definitions of a document without locations, and without the blanks around its texts. -/
def definitions (d : Document) : Source where
  enums := d.enums.map fun e => ⟨trimmed e.1, e.2.map trimmed, .unknown⟩
  families := d.families.map fun f =>
    ⟨trimmed f.1, f.2.map fun t => ⟨trimmed t, .unknown⟩, .unknown⟩

/-- What the line of an enum says. -/
def enumDirective (e : String × List String) : Directive :=
  .enum (e.1 ++ " ") (e.2.map trimmed)

/-- What the lines of a family say. -/
def familyDirectives (f : String × List String) : List Directive :=
  .family (trimmed f.1) :: f.2.map fun t => .entry (trimmed t)

/-- What the lines of a document say. -/
def directives (d : Document) : List Directive :=
  d.enums.map enumDirective ++ d.families.flatMap familyDirectives

/-! ### Collecting -/

theorem trimmed_append_space (text : String) : trimmed (text ++ " ") = trimmed text := by
  unfold trimmed
  rw [String.toList_append]
  congr 1
  exact trim_append_of_blank (a := []) (by simp) isBlank_of_mem_space

theorem collect_enums (s : Source) (es : List (String × List String)) :
    s.collect (es.map enumDirective) =
      .ok ⟨s.enums ++ es.map (fun e => ⟨trimmed e.1, e.2.map trimmed, .unknown⟩), s.families⟩ := by
  induction es generalizing s with
  | nil => simp
  | cons e es ih =>
    rw [List.map_cons, Source.collect_cons]
    refine (ih _).trans ?_
    simp [Source.addEnum, trimmed_trimmed, trimmed_append_space]

theorem collect_entries (es : List EnumSource) (fs : List FamilySource) (f : FamilySource)
    (ts : List String) :
    Source.collect ⟨es, fs ++ [f]⟩ (ts.map fun t => .entry (trimmed t)) =
      .ok ⟨es, fs ++
        [{ f with entries := f.entries ++ ts.map fun t => ⟨trimmed t, .unknown⟩ }]⟩ := by
  induction ts generalizing f with
  | nil => simp
  | cons t ts ih =>
    have hadd : Source.addDirective ⟨es, fs ++ [f]⟩ .unknown (.entry (trimmed t)) =
        .ok ⟨es, fs ++ [{ f with entries := f.entries ++ [⟨trimmed t, .unknown⟩] }]⟩ := by
      simp [Source.addDirective, Source.addEntry]
    rw [List.map_cons, Source.collect_cons, hadd]
    refine (ih _).trans ?_
    simp

theorem collect_families (s : Source) (fs : List (String × List String)) :
    s.collect (fs.flatMap familyDirectives) =
      .ok ⟨s.enums, s.families ++ fs.map fun f =>
        ⟨trimmed f.1, f.2.map fun t => ⟨trimmed t, .unknown⟩, .unknown⟩⟩ := by
  induction fs generalizing s with
  | nil => simp
  | cons f fs ih =>
    have hopen : s.addDirective .unknown (.family (trimmed f.1)) =
        .ok ⟨s.enums, s.families ++ [⟨trimmed f.1, [], .unknown⟩]⟩ := by
      simp [Source.addDirective, Source.addFamily, trimmed_trimmed]
    have hfamily : s.collect (familyDirectives f) = .ok ⟨s.enums, s.families ++
        [⟨trimmed f.1, f.2.map fun t => ⟨trimmed t, .unknown⟩, .unknown⟩]⟩ := by
      rw [familyDirectives, Source.collect_cons, hopen]
      exact collect_entries s.enums s.families ⟨trimmed f.1, [], .unknown⟩ f.2
    rw [List.flatMap_cons, Source.collect_append, hfamily]
    refine (ih _).trans ?_
    simp

theorem collect_directives (d : Document) :
    Source.empty.collect d.directives = .ok d.definitions := by
  rw [directives, Source.collect_append, collect_enums]
  exact (collect_families _ _).trans rfl

/-! ### Reading the lines -/

/-- The members of a line that declares an enum. -/
theorem splitOn_members {ms : List String} (h : ∀ m ∈ ms, ',' ∉ m.toList ∧ trimmed m ≠ "") :
    ((((' ' :: [',', ' '].intercalate (ms.map String.toList)).splitOn ',').map trim).filter
        fun m => !m.isEmpty) = ms.map fun m => trim m.toList := by
  have hcomma : ∀ p ∈ (ms.map String.toList).map (' ' :: ·), ',' ∉ p := by
    simpa using fun m hm => (h m hm).1
  have hblank : ∀ m ∈ ms, trim m.toList ≠ [] := fun m hm => mt trimmed_eq_empty_iff.2 (h m hm).2
  cases ms with
  | nil => rfl
  | cons m ms =>
    rw [cons_intercalate (by simp), List.splitOn_intercalate ',' hcomma (by simp), List.map_map,
      List.map_map]
    have hspace (s : List Char) : trim (' ' :: s) = trim s := by
      have := trim_append_of_blank (s := s) (b := []) isBlank_of_mem_space (by simp)
      simpa using this
    simp only [Function.comp_def, hspace]
    refine List.filter_eq_self.2 ?_
    simpa using ⟨hblank m (by simp), fun m hm => hblank m (List.mem_cons_of_mem _ hm)⟩

theorem toList_enumLine (e : String × List String) :
    (enumLine e).toList = ("enum ".toList ++ (e.1.toList ++ [' ', ':'])) ++
      ' ' :: [',', ' '].intercalate (e.2.map String.toList) := by
  simp [enumLine, String.toList_append, String.toList_intercalate]

theorem onLine_enumLine {e : String × List String} (hname : OnLine e.1)
    (hms : ∀ m ∈ e.2, OnLine m) : OnLine (enumLine e) := by
  have hmem {c : Char} (hc : c ∉ "enum : ,".toList) (h1 : c ∉ e.1.toList)
      (h2 : ∀ m ∈ e.2, c ∉ m.toList) : c ∉ (enumLine e).toList := by
    have hjoin : c ∉ [',', ' '].intercalate (e.2.map String.toList) :=
      not_mem_intercalate (by simp_all) (by simpa using h2)
    rw [toList_enumLine]
    simp_all
  exact ⟨hmem (by decide) hname.1 fun m hm => (hms m hm).1,
    hmem (by decide) hname.2 fun m hm => (hms m hm).2⟩

/-- The line of an enum says its name and its members. -/
theorem readsAs_enumLine {e : String × List String} (hname : OnLine e.1 ∧ ':' ∉ e.1.toList)
    (hms : ∀ m ∈ e.2, OnLine m ∧ ',' ∉ m.toList ∧ trimmed m ≠ "") :
    ReadsAs (lineContent (enumLine e).toList) (enumDirective e) := by
  intro loc
  have hhash := (onLine_enumLine hname.1 fun m hm => (hms m hm).1).2
  set members := ' ' :: [',', ' '].intercalate (e.2.map String.toList) with hmembers
  have hline : lineContent (enumLine e).toList =
      "enum ".toList ++ (e.1.toList ++ [' ', ':'] ++ trimEnd members) := by
    have hstart : trimStart (enumLine e).toList = (enumLine e).toList := by
      rw [toList_enumLine]
      exact trimStart_eq_self (by simp; decide)
    have hcolon : ∀ c ∈ ("enum ".toList ++ (e.1.toList ++ [' ', ':'])).getLast?,
        isBlank c = false := by
      rw [List.append_cons e.1.toList, ← List.append_assoc, List.getLast?_concat]
      simp only [Option.mem_some, forall_eq']
      rfl
    rw [lineContent_of_not_mem hhash, trim, hstart, toList_enumLine, ← hmembers,
      trimEnd_append hcolon, List.append_assoc]
  have hcut : cut ':' (e.1.toList ++ [' ', ':'] ++ trimEnd members) =
      some (e.1.toList ++ [' '], trimEnd members) := by
    have hcolon : ':' ∉ e.1.toList ++ [' '] := by simpa using hname.2
    have := cut_append_cons hcolon (trimEnd members)
    simpa using this
  have hread : (((trimEnd members).splitOn ',').map trim).filter (fun m => !m.isEmpty) =
      e.2.map fun m => trim m.toList := by
    obtain ⟨b, hb, htrim⟩ := exists_append_trimEnd members
    rw [← map_trim_splitOn_append hb, ← htrim]
    exact splitOn_members fun m hm => (hms m hm).2
  rw [hline, readDirective_enum, readEnum, hcut]
  simp only [hread]
  rw [enumDirective, String.ofList_append, String.ofList_toList, List.map_map]
  rfl

/-- The header of a family says its group. -/
theorem readsAs_header {group : String} (h : OnLine group ∧ trimmed group ≠ "") :
    ReadsAs (lineContent ("[" ++ group ++ "]").toList) (.family (trimmed group)) := by
  intro loc
  have htext : ("[" ++ group ++ "]").toList = '[' :: (group.toList ++ [']']) := by
    simp [String.toList_append]
  have hhash : '#' ∉ '[' :: (group.toList ++ [']']) := by
    simpa using h.1.2
  have htrim : trim ('[' :: (group.toList ++ [']'])) = '[' :: (group.toList ++ [']']) := by
    refine trim_eq_self (by simp; decide) ?_
    rw [← List.cons_append, List.getLast?_concat]
    simp; decide
  have hsuffix : [']'].isSuffixOf? (group.toList ++ [']']) = some group.toList :=
    List.isSuffixOf?_eq_some_iff_append_eq.2 rfl
  have hgroup : trim group.toList ≠ [] := mt trimmed_eq_empty_iff.2 h.2
  rw [htext, lineContent_of_not_mem hhash, htrim, readDirective_header, readHeader, hsuffix]
  cases hg : trim group.toList with
  | nil => exact (hgroup hg).elim
  | cons c s =>
    rw [trimmed, hg]
    simp only [hg]

/-- An entry says itself, without the blanks around it. -/
theorem readsAs_entry {text : String} (h : OnLine text)
    (hline : ¬ "[".toList <+: (trimmed text).toList ∧ ¬ "enum ".toList <+: (trimmed text).toList) :
    ReadsAs (lineContent text.toList) (.entry (trimmed text)) := by
  intro loc
  rw [toList_trimmed] at hline
  rw [lineContent_of_not_mem h.2, readDirective_entry hline.1 hline.2, trimmed]

/-! ### Reading the text -/

theorem forall₂_flatMap {α β γ : Type} {R : β → γ → Prop} {l : List α} {f : α → List β}
    {g : α → List γ} (h : ∀ a ∈ l, List.Forall₂ R (f a) (g a)) :
    List.Forall₂ R (l.flatMap f) (l.flatMap g) := by
  induction l with
  | nil => exact .nil
  | cons a l ih =>
    obtain ⟨ha, hl⟩ := List.forall_mem_cons.1 h
    exact List.rel_append ha (ih hl)

namespace Writable

variable {d : Document}

/-- **The lines of a document say what it holds.** -/
theorem readsAs (h : d.Writable) :
    List.Forall₂ ReadsAs (d.toLines.map fun l => lineContent l.toList) d.directives := by
  rw [toLines, List.map_append, List.map_map, List.map_flatMap]
  refine List.rel_append ?_ (forall₂_flatMap fun f hf => ?_)
  · rw [List.forall₂_map_left_iff, List.forall₂_map_right_iff, List.forall₂_same]
    exact fun e he => readsAs_enumLine (h.enum_name e he) (h.member e he)
  · refine .cons (readsAs_header (h.group f hf)) ?_
    rw [List.forall₂_map_left_iff, List.forall₂_map_right_iff, List.forall₂_same]
    exact fun t ht => readsAs_entry (h.entry f hf t ht).1 (h.entry_line f hf t ht)

/-- The lines stay lines, and none of them is blank. -/
theorem line (h : d.Writable) :
    ∀ l ∈ d.toLines, '\n' ∉ l.toList ∧ lineContent l.toList ≠ [] := by
  intro l hl
  rcases List.mem_append.1 hl with hl | hl
  · obtain ⟨e, he, rfl⟩ := List.mem_map.1 hl
    have hline := onLine_enumLine (h.enum_name e he).1 fun m hm => (h.member e he m hm).1
    refine ⟨hline.1, lineContent_ne_nil (c := 'e') hline.2 ?_ (by decide)⟩
    rw [toList_enumLine]
    exact List.mem_cons_self
  · obtain ⟨f, hf, hl⟩ := List.mem_flatMap.1 hl
    rcases List.mem_cons.1 hl with rfl | hl
    · obtain ⟨hfeed, hhash⟩ := (h.group f hf).1
      have htext : ("[" ++ f.1 ++ "]").toList = '[' :: (f.1.toList ++ [']']) := by
        simp [String.toList_append]
      rw [htext]
      exact ⟨by simpa using hfeed,
        lineContent_ne_nil (c := '[') (by simpa using hhash) List.mem_cons_self (by decide)⟩
    · obtain ⟨⟨hfeed, hhash⟩, hne⟩ := h.entry f hf l hl
      refine ⟨hfeed, ?_⟩
      rw [lineContent_of_not_mem hhash]
      exact mt trimmed_eq_empty_iff.2 hne

/-- **A document that is written is read again**, up to locations. -/
theorem readSource_eq (h : d.Writable) {text : String}
    (ht : lineContents text = lineContents d.toText) (source : String) :
    ∃ s, readSource source text = .ok s ∧ s.unplaced = d.definitions := by
  refine readSource_of_directives ?_ d.collect_directives
  rw [ht, toText, lineContents_join h.line]
  exact h.readsAs

end Writable

/-! ### The two formats -/

/-- The definitions of a document without their locations, if no blanks surround its entries. -/
theorem unplaced_toSource {d : Document} (h : ∀ f ∈ d.families, ∀ t ∈ f.2, trimmed t = t)
    (source : String) : (d.toSource source).unplaced = d.definitions := by
  have henums : (d.enums.zipIdx.map fun e =>
      (enumSource source e.1 e.2).relocate fun _ => .unknown) = d.definitions.enums := by
    conv_rhs => rw [definitions, ← List.zipIdx_map_fst 0 d.enums, List.map_map]
    rfl
  have hfamily : ∀ f ∈ d.families, (familySource source f).relocate (fun _ => .unknown) =
      ⟨trimmed f.1, f.2.map fun t => ⟨trimmed t, .unknown⟩, .unknown⟩ := by
    intro f hf
    have hentries : (f.2.zipIdx.map fun e => (⟨e.1, .unknown⟩ : EntrySource)) =
        f.2.map fun t => ⟨trimmed t, .unknown⟩ := by
      conv_rhs => rw [← List.zipIdx_map_fst 0 f.2, List.map_map]
      refine List.map_congr_left fun e he => ?_
      have hmem : e.1 ∈ f.2 := List.fst_mem_of_mem_zipIdx he
      simp only [Function.comp_apply, h f hf e.1 hmem]
    rw [FamilySource.relocate, familySource, List.map_map, ← hentries]
    rfl
  rw [Source.unplaced, Source.relocate, toSource, List.map_map, List.map_map]
  exact congrArg₂ Source.mk henums (List.map_congr_left hfamily)

/-- **The two formats agree.** Written in lines or as JSON, a document becomes the same registry,
fails with the same error, or ends abnormally in both, up to locations. -/
theorem formats_agree {d : Document} (h : d.Writable)
    (htight : ∀ f ∈ d.families, ∀ t ∈ f.2, trimmed t = t) {text json : String}
    (htext : text = d.toText ∨ text ++ "\n" = d.toText) (hjson : readDocument json = .ok d)
    (source source' : String) :
    outcome (readLines source text) = outcome (readJson source' json) := by
  have hlines : lineContents text = lineContents d.toText := by
    rcases htext with rfl | ht
    · rfl
    · rw [← ht, lineContents_append_lineFeed]
  obtain ⟨s, hs, hdef⟩ := h.readSource_eq hlines source
  have hbuild : readLines source text = s.build := by
    rw [readLines, hs]
    rfl
  rw [hbuild, readJson, hjson]
  exact Source.outcome_eq_of_unplaced_eq (hdef.trans (unplaced_toSource htight source').symm)

/-- A document whose registry is refused: two variants have one discriminator. -/
def clash : Document where
  enums := [("Operator", ["PLUS", "MINUS"])]
  families := [("expr", ["Expr : Node self", "Call : Expr *callee", "CALL:"])]

theorem writable_clash : clash.Writable where
  enum_name := by decide +kernel
  member := by decide +kernel
  group := by decide +kernel
  entry := by decide +kernel
  entry_line := by decide +kernel

theorem formats_agree_clash :
    outcome (readLines "lines"
        "enum Operator : PLUS, MINUS\n[expr]\nExpr : Node self\nCall : Expr *callee\nCALL:") =
      outcome (readJson "json"
        "[[[\"Operator\", [\"PLUS\", \"MINUS\"]]],
          [[\"expr\", [\"Expr : Node self\", \"Call : Expr *callee\", \"CALL:\"]]]]") :=
  formats_agree writable_clash (by decide +kernel) (.inr (by decide +kernel)) (by decide +kernel)
    _ _

end Document

end NodeSchema

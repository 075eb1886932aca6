import NodeSchema.Format.Lines
import NodeSchema.Proofs.Except
import NodeSchema.Proofs.Registry.Relocation
import NodeSchema.Proofs.Text.Pieces

/-!
# What lines say

What a line says is its text without its comment and the blanks around it, and a line end of one or
two characters makes no difference to it. A schema whose lines all say something that can be read is
collected line by line, and up to locations the definitions are those of its directives.

* `significantLines_snd`: the contents of the significant lines, read off the text at its line
  feeds.
* `readSource_of_directives`: **lines that are read as directives are collected as these say.**
-/

namespace NodeSchema

open Text

/-! ### Contents of lines -/

/-- What a line says: its text without its comment and the blanks around it. -/
def lineContent (raw : List Char) : List Char :=
  trim (raw.takeWhile (· ≠ '#'))

/-- What the significant lines of a text say. -/
def lineContents (text : String) : List (List Char) :=
  ((text.toList.splitOn '\n').map lineContent).filter fun l => !l.isEmpty

/-- The carriage return of a line end says nothing. -/
theorem lineContent_dropReturn (raw : List Char) :
    lineContent (dropReturn raw) = lineContent raw := by
  unfold dropReturn
  split_ifs with h
  · have hraw : raw = raw.dropLast ++ ['\r'] := by
      rw [List.getLast?_eq_some_iff] at h
      obtain ⟨s, rfl⟩ := h
      rw [List.dropLast_concat]
    unfold lineContent
    conv_rhs => rw [hraw]
    by_cases hc : ∀ c ∈ raw.dropLast, decide (c ≠ '#')
    · rw [List.takeWhile_append_of_pos hc, List.takeWhile_eq_self_iff.2 hc]
      exact (trim_append_of_blank (a := []) (by simp) (List.forall_mem_singleton.2 rfl)).symm
    · -- a comment hides the carriage return
      have hlen : (raw.dropLast.takeWhile (· ≠ '#')).length ≠ raw.dropLast.length := fun hl =>
        hc (List.takeWhile_eq_self_iff.1 ((List.takeWhile_prefix _).eq_of_length hl))
      rw [List.takeWhile_append, if_neg hlen]
  · rfl

/-- What follows the last line feed is a line like the others, unless it is empty. -/
theorem lineContents_lines (s : List Char) :
    ((lines s).map lineContent).filter (fun l => !l.isEmpty) =
      ((s.splitOn '\n').map lineContent).filter fun l => !l.isEmpty := by
  obtain ⟨ls, last, hs⟩ : ∃ ls last, s.splitOn '\n' = ls ++ [last] :=
    ⟨_, _, (List.dropLast_concat_getLast (List.splitOn_ne_nil '\n' s)).symm⟩
  have hlines : lines s = ls.map dropReturn ++ [last].filter fun l => !l.isEmpty := by
    simp only [lines, hs, List.dropLast_concat, List.getLast?_concat, Option.toList_some]
  rw [hlines, hs, List.map_append, List.map_append, List.filter_append, List.filter_append,
    List.map_map, Function.comp_def]
  simp only [lineContent_dropReturn]
  congr 1
  cases last with
  | nil => rfl
  | cons c last => rfl

/-- **The contents of the significant lines.** -/
theorem significantLines_snd (source text : String) :
    (significantLines source text).map Prod.snd = lineContents text := by
  rw [lineContents, ← lineContents_lines, significantLines, List.map_filterMap]
  conv_rhs => rw [← List.zipIdx_map_fst 0 (lines text.toList), List.map_map,
    ← List.filterMap_eq_filter, List.filterMap_map]
  refine List.filterMap_congr fun ⟨raw, i⟩ _ => ?_
  have hblank : (raw.takeWhile (· ≠ '#')).all isBlank ↔ lineContent raw = [] := by
    rw [lineContent, trim_eq_nil_iff, List.all_eq_true]
  simp only [Function.comp_apply]
  by_cases h : lineContent raw = []
  · rw [if_pos (hblank.2 h), h]
    rfl
  · rw [if_neg (mt hblank.1 h), Option.map_some, Option.guard_pos (by simpa using h), lineContent]

/-- A line without a comment says its text without the blanks around it. -/
theorem lineContent_of_not_mem {raw : List Char} (h : '#' ∉ raw) : lineContent raw = trim raw := by
  rw [lineContent, List.takeWhile_eq_self_iff.2]
  intro c hc
  rw [decide_eq_true_eq]
  rintro rfl
  exact h hc

theorem lineContent_ne_nil {raw : List Char} (h : '#' ∉ raw) {c : Char} (hc : c ∈ raw)
    (hb : isBlank c = false) : lineContent raw ≠ [] := by
  rw [lineContent_of_not_mem h, ne_eq, trim_eq_nil_iff]
  intro hall
  rw [hall c hc] at hb
  cases hb

/-- A line feed at the end of a text makes no difference. -/
theorem lineContents_append_lineFeed (text : String) :
    lineContents (text ++ "\n") = lineContents text := by
  have hsplit : (text ++ "\n").toList.splitOn '\n' = text.toList.splitOn '\n' ++ [[]] := by
    rw [String.toList_append]
    exact List.splitOn_append_cons_self text.toList []
  rw [lineContents, hsplit, List.map_append, List.filter_append, lineContents]
  exact List.append_nil _

/-- The contents of lines that all say something. -/
theorem lineContents_join {ls : List String}
    (h : ∀ l ∈ ls, '\n' ∉ l.toList ∧ lineContent l.toList ≠ []) :
    lineContents (String.join (ls.map (· ++ "\n"))) = ls.map fun l => lineContent l.toList := by
  have htext : (String.join (ls.map (· ++ "\n"))).toList =
      (ls.map String.toList).flatMap (· ++ ['\n']) ++ [] := by
    rw [String.toList_join, List.flatMap_map, List.flatMap_map, List.append_nil]
    simp [String.toList_append]
  have hlines : ∀ l ∈ ls.map String.toList, '\n' ∉ l := by
    simpa using fun l hl => (h l hl).1
  rw [lineContents, htext, splitOn_flatMap_concat hlines List.not_mem_nil, List.map_append,
    List.filter_append, List.map_map]
  refine (List.append_nil _).trans (List.filter_eq_self.2 ?_)
  simpa using fun l hl => (h l hl).2

/-! ### Directives -/

theorem isPrefixOf?_eq_none {a b : List Char} (h : ¬ a <+: b) : a.isPrefixOf? b = none := by
  cases hb : a.isPrefixOf? b with
  | none => rfl
  | some rest => exact (h ⟨rest, List.isPrefixOf?_eq_some_iff_append_eq.1 hb⟩).elim

theorem readDirective_header (loc : Location) (rest : List Char) :
    readDirective loc ('[' :: rest) = readHeader loc rest := by
  have h : "[".toList.isPrefixOf? ('[' :: rest) = some rest :=
    List.isPrefixOf?_eq_some_iff_append_eq.2 rfl
  rw [readDirective, h]

theorem readDirective_enum (loc : Location) (rest : List Char) :
    readDirective loc ("enum ".toList ++ rest) = readEnum loc ("enum ".toList ++ rest) rest := by
  have h1 : "[".toList.isPrefixOf? ("enum ".toList ++ rest) = none := rfl
  have h2 : "enum ".toList.isPrefixOf? ("enum ".toList ++ rest) = some rest :=
    List.isPrefixOf?_eq_some_iff_append_eq.2 rfl
  rw [readDirective, h1]
  simp only [h2]

theorem readDirective_entry {line : List Char} (h1 : ¬ "[".toList <+: line)
    (h2 : ¬ "enum ".toList <+: line) (loc : Location) :
    readDirective loc line = .ok (.entry (String.ofList line)) := by
  rw [readDirective, isPrefixOf?_eq_none h1]
  simp only [isPrefixOf?_eq_none h2]

/-- Adds a definition at a place. -/
def Source.addDirective (s : Source) (loc : Location) : Directive → Except Stop Source
  | .family group => .ok (s.addFamily group [] loc)
  | .enum name members => .ok (s.addEnum name members loc)
  | .entry text => s.addEntry loc text

theorem Source.addLine_eq (s : Source) (loc : Location) (line : List Char) :
    s.addLine (loc, line) = readDirective loc line >>= s.addDirective loc := by
  unfold Source.addLine
  refine bind_congr fun directive => ?_
  cases directive <;> rfl

/-- Adds what directives declare, without locations. -/
def Source.collect (s : Source) (ds : List Directive) : Except Stop Source :=
  ds.foldlM (fun s directive => s.addDirective .unknown directive) s

@[simp]
theorem Source.collect_nil (s : Source) : s.collect [] = .ok s :=
  rfl

theorem Source.collect_cons (s : Source) (directive : Directive) (ds : List Directive) :
    s.collect (directive :: ds) = s.addDirective .unknown directive >>= fun s => s.collect ds :=
  rfl

theorem Source.collect_append (s : Source) (ds es : List Directive) :
    s.collect (ds ++ es) = s.collect ds >>= fun s => s.collect es :=
  List.foldlM_append

/-- The line is read as the directive, wherever it stands. -/
def ReadsAs (line : List Char) (directive : Directive) : Prop :=
  ∀ loc, readDirective loc line = .ok directive

theorem Source.addDirective_unplaced {s t : Source} {directive : Directive} (loc : Location)
    (h : s.unplaced.addDirective .unknown directive = .ok t) :
    ∃ t', s.addDirective loc directive = .ok t' ∧ t'.unplaced = t := by
  cases directive with
  | family group =>
    cases h
    refine ⟨_, rfl, ?_⟩
    simp [Source.unplaced, Source.relocate, Source.addFamily, FamilySource.relocate]
  | enum name members =>
    cases h
    refine ⟨_, rfl, ?_⟩
    simp [Source.unplaced, Source.relocate, Source.addEnum, EnumSource.relocate]
  | entry text =>
    obtain ⟨enums, families⟩ := s
    rcases List.eq_nil_or_concat families with rfl | ⟨fs, f, rfl⟩
    · cases h
    · simp only [Source.unplaced, Source.relocate, Source.addDirective, Source.addEntry,
        List.concat_eq_append, List.map_append, List.map_singleton, List.getLast?_concat,
        List.dropLast_concat, Except.ok.injEq] at h
      subst h
      simp [Source.unplaced, Source.relocate, Source.addDirective, Source.addEntry,
        FamilySource.relocate, EntrySource.relocate]

/-- Lines that say directives add, up to their locations, what these declare. -/
theorem foldlM_addLine {ls : List (Location × List Char)} {ds : List Directive}
    (h : List.Forall₂ (fun line directive => ReadsAs line.2 directive) ls ds) {s t : Source}
    (ht : s.unplaced.collect ds = .ok t) :
    ∃ t', ls.foldlM Source.addLine s = .ok t' ∧ t'.unplaced = t := by
  induction h generalizing s with
  | nil =>
    cases ht
    exact ⟨s, rfl, rfl⟩
  | @cons line directive ls ds hline _ ih =>
    obtain ⟨loc, line⟩ := line
    rw [Source.collect_cons] at ht
    obtain ⟨u, hu, ht⟩ := bind_eq_ok.1 ht
    obtain ⟨s', hs', rfl⟩ := Source.addDirective_unplaced loc hu
    obtain ⟨t', ht', rfl⟩ := ih ht
    refine ⟨t', bind_eq_ok.2 ⟨s', ?_, ht'⟩, rfl⟩
    rw [Source.addLine_eq, hline loc]
    exact hs'

/-- **Lines that are read as directives are collected as these say.** -/
theorem readSource_of_directives {source text : String} {ds : List Directive} {t : Source}
    (h : List.Forall₂ ReadsAs (lineContents text) ds) (ht : Source.empty.collect ds = .ok t) :
    ∃ s, readSource source text = .ok s ∧ s.unplaced = t := by
  rw [← significantLines_snd source, List.forall₂_map_left_iff] at h
  exact foldlM_addLine h ht

end NodeSchema

import NodeSchema.Format.Document
import NodeSchema.Proofs.Format.Sections
import NodeSchema.Proofs.Registry.FirstDefect

/-!
# Where errors point

The definitions of a text keep the places of their lines while they are collected and while they are
checked, so an error of either points at the line that it is about.

* `mem_significantLines_iff`: the places of lines.
* `Source.Has.exists_line`: every definition that is collected stands on a line at its place.
* `errors_located`: **where the errors of a text point**, and that no schema has an error without a
  place.
-/

namespace NodeSchema

open Text

/-! ### The places of lines -/

/-- **A location points at a line of the text** that says something: it has the number of the line,
and the column, in bytes, of its first character that is not blank. -/
inductive PointsAt (source text : String) : Location → List Char → Prop
  | line {i : ℕ} {raw : List Char} : (lines text.toList)[i]? = some raw → lineContent raw ≠ [] →
      PointsAt source text ⟨source, i + 1, byteCount (raw.takeWhile isBlank) + 1⟩
        (lineContent raw)

/-- The leading blanks of a line stand before its comment. -/
theorem takeWhile_isBlank_takeWhile (raw : List Char) :
    (raw.takeWhile (· ≠ '#')).takeWhile isBlank = raw.takeWhile isBlank := by
  have hhash : ∀ c, isBlank c → c ≠ '#' := by
    rintro _ hc rfl
    cases hc
  rw [List.takeWhile_takeWhile]
  congr 1
  funext c
  simpa using hhash c

/-- **The significant lines are those that locations point at.** -/
theorem mem_significantLines_iff {source text : String} {loc : Location} {line : List Char} :
    (loc, line) ∈ significantLines source text ↔ PointsAt source text loc line := by
  have hblank (raw : List Char) : (raw.takeWhile (· ≠ '#')).all isBlank ↔ lineContent raw = [] := by
    rw [lineContent, trim_eq_nil_iff, List.all_eq_true]
  simp only [significantLines, List.mem_filterMap, Prod.exists, List.mk_mem_zipIdx_iff_getElem?]
  constructor
  · rintro ⟨raw, i, hraw, h⟩
    split_ifs at h with hall
    cases h
    rw [takeWhile_isBlank_takeWhile]
    exact .line hraw (mt (hblank raw).2 hall)
  · rintro ⟨hraw, hne⟩
    refine ⟨_, _, hraw, ?_⟩
    rw [if_neg (mt (hblank _).1 hne), takeWhile_isBlank_takeWhile]
    rfl

theorem PointsAt.trim_eq {source text : String} {loc : Location} {line : List Char}
    (h : PointsAt source text loc line) : trim line = line := by
  cases h
  exact trim_trim _

theorem PointsAt.ne_unknown {source text : String} {loc : Location} {line : List Char}
    (h : PointsAt source text loc line) : loc ≠ .unknown := by
  rintro rfl
  generalize hloc : Location.unknown = loc at h
  cases h
  cases hloc

/-! ### The lines of definitions -/

/-- **The line declares the definition.** -/
inductive Definition.StandsOn (line : List Char) : Definition → Prop
  | enum {d : EnumSource} {name : String} : Says line (.enum name d.members) →
      trimmed name = d.name → StandsOn line (.enum d)
  | family {f : FamilySource} : Says line (.family f.group) → StandsOn line (.family f)
  | entry {d : EntrySource} : Says line (.entry d.text) → StandsOn line (.entry d)

/-- The definition is one of the source. -/
inductive Source.Has (s : Source) : Definition → Prop
  | enum {d : EnumSource} : d ∈ s.enums → s.Has (.enum d)
  | family {f : FamilySource} : f ∈ s.families → s.Has (.family f)
  | entry {f : FamilySource} {d : EntrySource} : f ∈ s.families → d ∈ f.entries →
      s.Has (.entry d)

theorem Source.FirstDefect.has {s : Source} {d : Definition} {stop : Stop}
    (h : s.FirstDefect d stop) : s.Has d := by
  cases h with
  | enum henums _ _ => exact .enum (by simp [henums])
  | member henums _ _ _ => exact .enum (by simp [henums])
  | family hfamilies _ _ => exact .family (by simp [hfamilies])
  | @base before after f _ _ _ _ hfamilies hentries _ _ _ =>
    exact .entry (f := f) (by simp [hfamilies]) (by simp [hentries])
  | @variant before after f _ _ _ _ _ _ hfamilies hentries _ _ =>
    exact .entry (f := f) (by simp [hfamilies]) (by simp [hentries])

theorem mem_enumsOf {ds : List (Location × Directive)} {e : EnumSource} (h : e ∈ enumsOf ds) :
    ∃ name members, (e.loc, .enum name members) ∈ ds ∧ e.name = trimmed name ∧
      e.members = members.map trimmed := by
  induction ds with
  | nil => cases h
  | cons d ds ih =>
    obtain ⟨loc, directive⟩ := d
    have hrest (hmem : e ∈ enumsOf ds) : ∃ name members,
        (e.loc, .enum name members) ∈ (loc, directive) :: ds ∧ e.name = trimmed name ∧
          e.members = members.map trimmed := by
      obtain ⟨name, members, hmem, heq⟩ := ih hmem
      exact ⟨name, members, List.mem_cons_of_mem _ hmem, heq⟩
    cases directive with
    | family group => exact hrest h
    | entry text => exact hrest h
    | enum name members =>
      rcases List.mem_cons.1 h with rfl | h
      · exact ⟨name, members, List.mem_cons_self, rfl, rfl⟩
      · exact hrest h

theorem mem_leadingEntries {ds : List (Location × Directive)} {e : EntrySource}
    (h : e ∈ leadingEntries ds) : (e.loc, .entry e.text) ∈ ds := by
  induction ds with
  | nil => cases h
  | cons d ds ih =>
    obtain ⟨loc, directive⟩ := d
    cases directive with
    | family group => cases h
    | enum name members => exact List.mem_cons_of_mem _ (ih h)
    | entry text =>
      rcases List.mem_cons.1 h with rfl | h
      · exact List.mem_cons_self
      · exact List.mem_cons_of_mem _ (ih h)

theorem mem_familiesOf {ds : List (Location × Directive)} {f : FamilySource}
    (h : f ∈ familiesOf ds) :
    (∃ group, (f.loc, .family group) ∈ ds ∧ f.group = trimmed group) ∧
      ∀ e ∈ f.entries, (e.loc, .entry e.text) ∈ ds := by
  induction ds with
  | nil => cases h
  | cons d ds ih =>
    obtain ⟨loc, directive⟩ := d
    have hrest (hmem : f ∈ familiesOf ds) :
        (∃ group, (f.loc, .family group) ∈ (loc, directive) :: ds ∧ f.group = trimmed group) ∧
          ∀ e ∈ f.entries, (e.loc, .entry e.text) ∈ (loc, directive) :: ds := by
      obtain ⟨⟨group, hmem, hgroup⟩, hentries⟩ := ih hmem
      exact ⟨⟨group, List.mem_cons_of_mem _ hmem, hgroup⟩,
        fun e he => List.mem_cons_of_mem _ (hentries e he)⟩
    cases directive with
    | enum name members => exact hrest h
    | entry text => exact hrest h
    | family group =>
      rcases List.mem_cons.1 h with rfl | h
      · exact ⟨⟨group, List.mem_cons_self, rfl⟩,
          fun e he => List.mem_cons_of_mem _ (mem_leadingEntries he)⟩
      · exact hrest h

/-- The members that a line lists have no blanks around them. -/
theorem map_trimmed_listedMembers (members : List Char) :
    (listedMembers members).map trimmed = listedMembers members := by
  rw [listedMembers, List.map_map]
  refine List.map_congr_left fun m hm => ?_
  obtain ⟨piece, -, rfl⟩ := List.mem_map.1 (List.mem_of_mem_filter hm)
  rw [Function.comp_apply, trimmed, String.toList_ofList, trim_trim]

/-- Every definition that is collected stands on a line at its place. -/
theorem Source.Has.exists_line {source text : String} {s : Source}
    (hs : readSource source text = .ok s) {d : Definition} (h : s.Has d) :
    ∃ line, PointsAt source text d.loc line ∧ d.StandsOn line := by
  obtain ⟨ds, hls, -, rfl⟩ := readSource_eq_ok_iff.1 hs
  have hline {loc : Location} {directive : Directive} (hmem : (loc, directive) ∈ ds) :
      ∃ line, PointsAt source text loc line ∧ Says line directive := by
    obtain ⟨⟨_, line⟩, hmem, rfl, hsaid⟩ := exists_of_forall₂ hls.flip hmem
    exact ⟨line, mem_significantLines_iff.1 hmem, hsaid⟩
  cases h with
  | enum hd =>
    obtain ⟨name, members, hmem, hname, hmembers⟩ := mem_enumsOf hd
    obtain ⟨line, hpoints, hsaid⟩ := hline hmem
    refine ⟨line, hpoints, .enum ?_ hname.symm⟩
    cases hsaid with
    | enum hcolon =>
      rw [hmembers, map_trimmed_listedMembers]
      exact .enum hcolon
  | family hf =>
    obtain ⟨⟨group, hmem, hgroup⟩, -⟩ := mem_familiesOf hf
    obtain ⟨line, hpoints, hsaid⟩ := hline hmem
    refine ⟨line, hpoints, .family ?_⟩
    cases hsaid with
    | family hne =>
      rw [hgroup, trimmed, String.toList_ofList, trim_trim]
      exact .family hne
  | entry hf hd =>
    obtain ⟨line, hpoints, hsaid⟩ := hline ((mem_familiesOf hf).2 _ hd)
    exact ⟨line, hpoints, .entry hsaid⟩

/-! ### Errors -/

/-- Of the lines that are reported while they are collected, only those of enums are located. -/
theorem readSource_error_located {source text : String} {e : Error} {loc : Location}
    (h : readSource source text = .error (.error e)) (hloc : e.location? = some loc) :
    ∃ rest, PointsAt source text loc ("enum ".toList ++ rest) ∧ ':' ∉ rest ∧
      e = .missingSeparator loc (String.ofList ("enum ".toList ++ rest)) := by
  rw [readSource, foldlM_eq_error] at h
  obtain ⟨before, ⟨place, line⟩, after, s, hls, -, hline⟩ := h
  have hpoints : PointsAt source text place line :=
    mem_significantLines_iff.1 (by simp [hls])
  rw [Source.addLine_eq, bind_eq_error] at hline
  rcases hline with hread | ⟨directive, -, hadd⟩
  · obtain ⟨_, hun, ⟨⟩⟩ := readDirective_eq_error_iff.1 hread
    cases hun with
    | unterminated hsuffix => cases hloc
    | unnamed hnil => cases hloc
    | @separator rest hcolon =>
      cases hloc
      exact ⟨rest, hpoints, hcolon, rfl⟩
  · cases directive with
    | family group => cases hadd
    | enum name members => cases hadd
    | entry text =>
      rw [Source.addDirective, Source.addEntry] at hadd
      split at hadd
      · cases hadd
        cases hloc
      · cases hadd

/-- The first defect of a source misses a separator only in an entry, which it quotes. -/
theorem Source.FirstDefect.entry_of_missingSeparator {s : Source} {d : Definition} {loc : Location}
    {entry : String} (h : s.FirstDefect d (.error (.missingSeparator loc entry))) :
    ∃ e, d = .entry e ∧ entry = trimmed e.text := by
  cases h with
  | enum _ _ hdefect => cases hdefect
  | member _ _ _ hdefect => cases hdefect
  | family _ _ hdefect => cases hdefect
  | base _ _ _ _ hdefect =>
    cases hdefect with
    | rejected hrejected _ =>
      cases hrejected
      exact ⟨_, rfl, rfl⟩
    | record _ hcheck => cases hcheck
  | variant _ _ _ hdefect =>
    cases hdefect with
    | rejected hrejected _ =>
      cases hrejected
      exact ⟨_, rfl, rfl⟩
    | record _ hcheck => cases hcheck

/-- Errors about families are found in families. -/
theorem Source.FirstDefect.family_of_error {s : Source} {d : Definition} {loc : Location}
    {group : String} {e : Error} (h : s.FirstDefect d (.error e))
    (he : e = .emptyFamily loc group ∨ ∃ reason, e = .duplicateFamily loc group reason) :
    ∃ f, d = .family f ∧ f.group = group := by
  rcases he with rfl | ⟨reason, rfl⟩
  all_goals
    cases h with
    | enum _ _ hdefect => cases hdefect
    | member _ _ _ hdefect => cases hdefect
    | family _ _ hdefect =>
      cases hdefect
      all_goals exact ⟨_, rfl, rfl⟩
    | base _ _ _ _ hdefect =>
      cases hdefect with
      | rejected hrejected _ => cases hrejected
      | record _ hcheck => cases hcheck
    | variant _ _ _ hdefect =>
      cases hdefect with
      | rejected hrejected _ => cases hrejected
      | record _ hcheck => cases hcheck

/-- **The line that an error is about**: that of an enum which cannot be read, or that of the
definition with the first defect. -/
inductive Concerns (source text : String) (e : Error) (loc : Location) (line : List Char) : Prop
  | separator {rest : List Char} (line_eq : line = "enum ".toList ++ rest) (colon : ':' ∉ rest)
      (error_eq : e = .missingSeparator loc (String.ofList line))
  | definition {s : Source} {d : Definition} (collected : readSource source text = .ok s)
      (defect : s.FirstDefect d (.error e)) (place : d.loc = loc) (stands : d.StandsOn line)

theorem exists_concerns {source text : String} {e : Error} {loc : Location}
    (h : readLines source text = .error (.error e)) (hloc : e.location? = some loc) :
    ∃ line, PointsAt source text loc line ∧ Concerns source text e loc line := by
  rcases bind_eq_error.1 h with hread | ⟨s, hs, hbuild⟩
  · obtain ⟨rest, hpoints, hcolon, he⟩ := readSource_error_located hread hloc
    exact ⟨_, hpoints, .separator rfl hcolon he⟩
  · obtain ⟨d, hdefect⟩ := Source.build_eq_error_iff_exists_firstDefect.1 hbuild
    obtain ⟨line, hpoints, hstands⟩ := hdefect.has.exists_line hs
    obtain rfl : d.loc = loc := Option.some.inj (hdefect.location?_eq.symm.trans hloc)
    exact ⟨line, hpoints, .definition hs hdefect rfl hstands⟩

/-- An entry without a colon is quoted as its line says it. -/
theorem Concerns.quotes {source text entry : String} {loc : Location} {line : List Char}
    (h : Concerns source text (.missingSeparator loc entry) loc line) (htrim : trim line = line) :
    entry = String.ofList line := by
  cases h with
  | separator _ _ he =>
    cases he
    rfl
  | definition _ hdefect _ hstands =>
    obtain ⟨d, rfl, rfl⟩ := hdefect.entry_of_missingSeparator
    cases hstands with
    | entry hsaid => rw [hsaid.entry_eq, trimmed, String.toList_ofList, htrim]

/-- An error about a family is at its header. -/
theorem Concerns.says_family {source text group : String} {e : Error} {loc : Location}
    {line : List Char} (h : Concerns source text e loc line)
    (he : e = .emptyFamily loc group ∨ ∃ reason, e = .duplicateFamily loc group reason) :
    Says line (.family group) := by
  cases h with
  | separator _ _ hsep => rcases he with rfl | ⟨reason, rfl⟩ <;> cases hsep
  | definition _ hdefect _ hstands =>
    obtain ⟨f, rfl, rfl⟩ := hdefect.family_of_error he
    cases hstands with
    | family hsaid => exact hsaid

/-- The definitions of a document are numbered from one. -/
theorem Document.line_ne_zero {d : Document} {source : String} {definition : Definition}
    (h : (d.toSource source).Has definition) : definition.loc.line ≠ 0 := by
  cases h with
  | enum he =>
    obtain ⟨p, -, rfl⟩ := List.mem_map.1 he
    exact Nat.succ_ne_zero _
  | family hf =>
    obtain ⟨p, -, rfl⟩ := List.mem_map.1 hf
    exact Nat.succ_ne_zero _
  | entry hf he =>
    obtain ⟨p, -, rfl⟩ := List.mem_map.1 hf
    obtain ⟨q, -, rfl⟩ := List.mem_map.1 he
    exact Nat.succ_ne_zero _

theorem readJson_error_located {source text : String} {e : Error}
    (h : readJson source text = .error (.error e)) : e.location? ≠ some .unknown := by
  unfold readJson at h
  split at h
  · obtain ⟨d, hdefect⟩ := Source.build_eq_error_iff_exists_firstDefect.1 h
    rw [hdefect.location?_eq]
    intro hloc
    exact Document.line_ne_zero hdefect.has (by rw [Option.some.inj hloc]; rfl)
  · cases h
    simp [Error.location?]
  · cases h
    simp [Error.location?]

/-- **Where errors point.** If loading a text fails with an error that has a location, this is the
location of a line, and the error is about this line. An entry without a colon is quoted as the line
says it, and a family without entries or with a group that is taken is reported at its header. No
text of either format has an error that points nowhere. -/
theorem errors_located (source text : String) :
    (∀ e loc, readLines source text = .error (.error e) → e.location? = some loc →
      ∃ line, PointsAt source text loc line ∧ Concerns source text e loc line ∧
        (∀ entry, e = .missingSeparator loc entry → entry = String.ofList line) ∧
        ∀ group, (e = .emptyFamily loc group ∨ ∃ reason, e = .duplicateFamily loc group reason) →
          Says line (.family group)) ∧
    ∀ e, readLines source text = .error (.error e) ∨ readJson source text = .error (.error e) →
      e.location? ≠ some .unknown := by
  constructor
  · intro e loc h hloc
    obtain ⟨line, hpoints, hconcerns⟩ := exists_concerns h hloc
    refine ⟨line, hpoints, hconcerns, ?_, fun group => hconcerns.says_family⟩
    rintro entry rfl
    exact hconcerns.quotes hpoints.trim_eq
  · rintro e (h | h)
    · intro hloc
      obtain ⟨line, hpoints, -⟩ := exists_concerns h hloc
      exact hpoints.ne_unknown rfl
    · exact readJson_error_located h

/-- An entry without a colon is reported at its line, with the text of the line. -/
theorem errors_located_missingSeparator :
    let text := "[expr]\n\n  Expr Node self # base\n"
    let e : Error := .missingSeparator ⟨"ast.schema", 3, 3⟩ "Expr Node self"
    readLines "ast.schema" text = .error (.error e) ∧ e.location? ≠ some .unknown ∧
      ∃ line, PointsAt "ast.schema" text ⟨"ast.schema", 3, 3⟩ line ∧
        "Expr Node self" = String.ofList line := by
  intro text e
  have hfails : readLines "ast.schema" text = .error (.error e) := by decide +kernel
  obtain ⟨hlocated, hknown⟩ := errors_located "ast.schema" text
  obtain ⟨line, hpoints, -, hquotes, -⟩ := hlocated e _ hfails rfl
  exact ⟨hfails, hknown e (.inl hfails), line, hpoints, hquotes _ rfl⟩

end NodeSchema

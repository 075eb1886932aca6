import NodeSchema.Proofs.Format.Located

/-!
# Texts that say the same

Comments, blank lines and blanks around lines do not change what a text says, and neither does the
place of a line that declares an enum among the other lines.

* `SameOutcome`: outcomes that are the same apart from places, also from those that a message shows.
* `readLines_alike`: what becomes of a text is decided by the contents of its lines.
* `readLines_rearranged`: **texts that say the same become the same**, and the lines of enums can
  stand anywhere.
-/

namespace NodeSchema

open Text

/-! ### Outcomes apart from places -/

/-- The stops are the same apart from places. A fault in the format of a line shows its place in the
message. -/
inductive Stop.Alike : Stop → Stop → Prop
  | aborted : Alike aborted aborted
  | error {e e' : Error} :
      e.relocate (fun _ => .unknown) = e'.relocate (fun _ => .unknown) → Alike e e'
  | format {fault : LineFault} {loc loc' : Location} : loc.file = loc'.file →
      Alike (fault.error loc) (fault.error loc')

/-- **The outcomes are the same apart from places**, if results are compared by `R`. -/
inductive SameOutcome {α β : Type} (R : α → β → Prop) : Except Stop α → Except Stop β → Prop
  | ok {a : α} {b : β} : R a b → SameOutcome R (.ok a) (.ok b)
  | error {stop stop' : Stop} : stop.Alike stop' → SameOutcome R (.error stop) (.error stop')

section

variable {α β α' β' : Type} {R : α → β → Prop} {S : α' → β' → Prop}

theorem SameOutcome.bind {x : Except Stop α} {y : Except Stop β} {f : α → Except Stop α'}
    {g : β → Except Stop β'} (h : SameOutcome R x y)
    (hnext : ∀ a b, R a b → SameOutcome S (f a) (g b)) : SameOutcome S (x >>= f) (y >>= g) := by
  cases h with
  | ok hab => exact hnext _ _ hab
  | error hstop => exact .error hstop

/-- Folds over elements that match have the same outcome if their steps do. -/
theorem SameOutcome.foldlM {f : α → α' → Except Stop α} {g : β → β' → Except Stop β} {as : List α'}
    {bs : List β'} (h : List.Forall₂ S as bs)
    (hstep : ∀ s t a b, R s t → S a b → SameOutcome R (f s a) (g t b)) {s : α} {t : β}
    (hst : R s t) : SameOutcome R (as.foldlM f s) (bs.foldlM g t) := by
  induction h generalizing s t with
  | nil => exact .ok hst
  | cons hab _ ih => exact (hstep _ _ _ _ hst hab).bind fun _ _ hnext => ih hnext

end

theorem Stop.Alike.of_relocate_eq {stop stop' : Stop}
    (h : stop.relocate (fun _ => .unknown) = stop'.relocate fun _ => .unknown) :
    stop.Alike stop' := by
  cases stop with
  | aborted =>
    cases stop' with
    | aborted => exact .aborted
    | error e' => cases h
  | error e =>
    cases stop' with
    | aborted => cases h
    | error e' => exact .error (Stop.error.inj h)

/-- Sources that differ in places only are built alike. -/
theorem Source.sameOutcome_build {s t : Source} (h : s.unplaced = t.unplaced) :
    SameOutcome (fun r r' => r.unplaced = r'.unplaced) s.build t.build := by
  have houtcome := outcome_eq_of_unplaced_eq h
  generalize s.build = x, t.build = y at houtcome ⊢
  cases x with
  | ok r =>
    cases y with
    | ok r' => exact .ok (Except.ok.inj houtcome)
    | error stop => cases houtcome
  | error stop =>
    cases y with
    | ok r' => cases houtcome
    | error stop' => exact .error (.of_relocate_eq (Except.error.inj houtcome))

/-! ### Lines that say the same -/

/-- Two lines say the same, in the same file. -/
def SameLine (a b : Location × List Char) : Prop :=
  a.1.file = b.1.file ∧ a.2 = b.2

/-- What is reported of a line depends on its place only as far as the place is reported. -/
theorem Unreadable.alike {loc loc' : Location} {line : List Char} {e : Error}
    (h : Unreadable loc line e) (hfile : loc.file = loc'.file) :
    ∃ e', Unreadable loc' line e' ∧ Stop.Alike e e' := by
  cases h with
  | unterminated hsuffix => exact ⟨_, .unterminated hsuffix, .format hfile⟩
  | unnamed hnil => exact ⟨_, .unnamed hnil, .format hfile⟩
  | separator hcolon => exact ⟨_, .separator hcolon, .error rfl⟩

theorem sameOutcome_readDirective {loc loc' : Location} (line : List Char)
    (hfile : loc.file = loc'.file) :
    SameOutcome Eq (readDirective loc line) (readDirective loc' line) := by
  rcases says_or_unreadable loc line with ⟨directive, hsaid⟩ | ⟨e, he⟩
  · rw [hsaid.readDirective_eq, hsaid.readDirective_eq]
    exact .ok rfl
  · obtain ⟨e', he', halike⟩ := he.alike hfile
    rw [he.readDirective_eq, he'.readDirective_eq]
    exact .error halike

namespace Source

variable {s t : Source} {loc loc' : Location}

theorem sameOutcome_addDirective (h : s.unplaced = t.unplaced) (hfile : loc.file = loc'.file)
    (directive : Directive) :
    SameOutcome (fun s t => s.unplaced = t.unplaced) (s.addDirective loc directive)
      (t.addDirective loc' directive) := by
  obtain ⟨es, fs⟩ := s
  obtain ⟨es', fs'⟩ := t
  obtain ⟨hes, hfs⟩ := Source.mk.inj h
  cases directive with
  | family group =>
    refine .ok (congrArg₂ Source.mk hes ?_)
    simp only [addFamily, List.map_append, hfs]
    rfl
  | enum name members =>
    refine .ok (congrArg₂ Source.mk ?_ hfs)
    simp only [addEnum, List.map_append, hes]
    rfl
  | entry text =>
    rcases List.eq_nil_or_concat fs with rfl | ⟨fs, f, rfl⟩
    · obtain rfl := List.map_eq_nil_iff.1 hfs.symm
      exact .error (@Stop.Alike.format .outside loc loc' hfile)
    · rcases List.eq_nil_or_concat fs' with rfl | ⟨fs', f', rfl⟩
      · simp at hfs
      · rw [List.concat_eq_append, List.concat_eq_append, List.map_append, List.map_append] at hfs
        obtain ⟨hfs, hf⟩ := List.append_inj' hfs rfl
        simp only [List.map_singleton, List.cons.injEq, and_true, FamilySource.relocate,
          FamilySource.mk.injEq] at hf
        simp only [List.concat_eq_append, addDirective, addEntry, List.getLast?_concat,
          List.dropLast_concat]
        refine .ok (congrArg₂ Source.mk hes ?_)
        simp only [List.map_append, hfs, List.map_singleton, FamilySource.relocate, hf]
        rfl

theorem sameOutcome_addLine {a b : Location × List Char} (h : s.unplaced = t.unplaced)
    (hline : SameLine a b) :
    SameOutcome (fun s t => s.unplaced = t.unplaced) (s.addLine a) (t.addLine b) := by
  obtain ⟨loc, line⟩ := a
  obtain ⟨loc', _⟩ := b
  obtain ⟨hfile, rfl⟩ := hline
  rw [addLine_eq, addLine_eq]
  refine (sameOutcome_readDirective line hfile).bind fun directive _ heq => ?_
  subst heq
  exact sameOutcome_addDirective h hfile directive

end Source

/-- The lines of texts with the same contents say the same, one by one. -/
theorem forall₂_sameLine {source text text' : String} (h : lineContents text = lineContents text') :
    List.Forall₂ SameLine (significantLines source text) (significantLines source text') := by
  have hfile (text : String) : ∀ line ∈ significantLines source text, line.1.file = source := by
    rintro ⟨loc, line⟩ hline
    cases mem_significantLines_iff.1 hline
    rfl
  have hcontents : List.Forall₂ (fun a b => a.2 = b.2) (significantLines source text)
      (significantLines source text') := by
    rw [← significantLines_snd source, ← significantLines_snd source text'] at h
    rw [← List.forall₂_eq_eq_eq, List.forall₂_map_left_iff, List.forall₂_map_right_iff] at h
    exact h
  have hleft := forall₂_imp_of_mem hcontents fun a ha b hab => And.intro (hfile text a ha) hab
  refine (forall₂_imp_of_mem hleft.flip fun b hb a hab => ?_).flip
  exact And.intro (hab.1.trans (hfile text' b hb).symm) hab.2

/-- **What becomes of a text is decided by the contents of its lines**, apart from places. -/
theorem readLines_alike {source text text' : String} (h : lineContents text = lineContents text') :
    SameOutcome (fun r r' => r.unplaced = r'.unplaced) (readLines source text)
      (readLines source text') := by
  have hsources : SameOutcome (fun s t => s.unplaced = t.unplaced) (readSource source text)
      (readSource source text') :=
    .foldlM (forall₂_sameLine h) (fun _ _ _ _ => Source.sameOutcome_addLine) rfl
  exact hsources.bind fun s t => Source.sameOutcome_build

/-! ### Lines of enums among the others -/

/-- Whether a line declares an enum. -/
def isEnumLine (line : List Char) : Bool :=
  "enum ".toList.isPrefixOf line

/-- Whether a directive declares an enum. -/
def Directive.isEnum : Directive → Bool
  | enum _ _ => true
  | _ => false

@[simp]
theorem Directive.isEnum_family (group : String) : (family group).isEnum = false :=
  rfl

@[simp]
theorem Directive.isEnum_enum (name : String) (members : List String) :
    (enum name members).isEnum = true :=
  rfl

@[simp]
theorem Directive.isEnum_entry (text : String) : (entry text).isEnum = false :=
  rfl

theorem Says.isEnumLine_eq {line : List Char} {directive : Directive} (h : Says line directive) :
    isEnumLine line = directive.isEnum := by
  cases h with
  | family _ => rfl
  | enum _ => exact List.isPrefixOf_iff_prefix.2 (List.prefix_append ..)
  | entry _ henum => exact Bool.eq_false_iff.2 (mt List.isPrefixOf_iff_prefix.1 henum)

section

variable (ds : List (Location × Directive))

theorem enumsOf_filter : enumsOf (ds.filter (·.2.isEnum)) = enumsOf ds := by
  induction ds with
  | nil => rfl
  | cons d ds ih =>
    obtain ⟨loc, directive⟩ := d
    cases directive <;> simp [List.filter_cons, enumsOf, ih]

theorem leadingEntries_filter : leadingEntries (ds.filter (!·.2.isEnum)) = leadingEntries ds := by
  induction ds with
  | nil => rfl
  | cons d ds ih =>
    obtain ⟨loc, directive⟩ := d
    cases directive <;> simp [leadingEntries, ih]

theorem familiesOf_filter : familiesOf (ds.filter (!·.2.isEnum)) = familiesOf ds := by
  induction ds with
  | nil => rfl
  | cons d ds ih =>
    obtain ⟨loc, directive⟩ := d
    cases directive <;> simp [familiesOf, leadingEntries_filter, ih]

end

/-! ### Directives without places -/

/-- The directives without their places. -/
def unplacedDirectives (ds : List (Location × Directive)) : List (Location × Directive) :=
  ds.map fun d => (.unknown, d.2)

section

variable (ds : List (Location × Directive))

theorem enumsOf_unplaced : enumsOf (unplacedDirectives ds) =
    (enumsOf ds).map (EnumSource.relocate fun _ => .unknown) := by
  induction ds with
  | nil => rfl
  | cons d ds ih =>
    obtain ⟨loc, directive⟩ := d
    rw [unplacedDirectives] at ih ⊢
    cases directive <;> simp [enumsOf, ih, EnumSource.relocate]

theorem leadingEntries_unplaced : leadingEntries (unplacedDirectives ds) =
    (leadingEntries ds).map (EntrySource.relocate fun _ => .unknown) := by
  induction ds with
  | nil => rfl
  | cons d ds ih =>
    obtain ⟨loc, directive⟩ := d
    rw [unplacedDirectives] at ih ⊢
    cases directive <;> simp [leadingEntries, ih, EntrySource.relocate]

theorem familiesOf_unplaced : familiesOf (unplacedDirectives ds) =
    (familiesOf ds).map (FamilySource.relocate fun _ => .unknown) := by
  induction ds with
  | nil => rfl
  | cons d ds ih =>
    obtain ⟨loc, directive⟩ := d
    have hleading := leadingEntries_unplaced ds
    rw [unplacedDirectives] at ih hleading ⊢
    cases directive <;> simp [familiesOf, hleading, ih, FamilySource.relocate]

theorem Source.unplaced_ofDirectives :
    (Source.ofDirectives ds).unplaced = .ofDirectives (unplacedDirectives ds) := by
  rw [ofDirectives, ofDirectives, enumsOf_unplaced, familiesOf_unplaced]
  rfl

end

/-! ### The same lines in another order -/

/-- Texts have the same lines of enums, in the same order, and the same other lines, in the same
order. -/
structure SameButEnums (text text' : String) : Prop where
  enums : (lineContents text).filter isEnumLine = (lineContents text').filter isEnumLine
  others : (lineContents text).filter (!isEnumLine ·) = (lineContents text').filter (!isEnumLine ·)

theorem SameButEnums.mem_iff {text text' : String} (h : SameButEnums text text')
    {line : List Char} : line ∈ lineContents text ↔ line ∈ lineContents text' := by
  have henums := congrArg (line ∈ ·) h.enums
  have hothers := congrArg (line ∈ ·) h.others
  simp only [List.mem_filter, eq_iff_iff] at henums hothers
  cases hline : isEnumLine line with
  | true => simpa [hline] using henums
  | false => simpa [hline] using hothers

/-- What the lines of a text say one by one, without their places. -/
theorem forall₂_says {source text : String} {ds : List (Location × Directive)}
    (h : List.Forall₂ SaysAt (significantLines source text) ds) :
    List.Forall₂ Says (lineContents text) (ds.map Prod.snd) := by
  rw [← significantLines_snd source, List.forall₂_map_left_iff, List.forall₂_map_right_iff]
  exact h.imp fun _ _ => And.right

/-- Lines say one thing each, so those that are told apart by what they say can be left out. -/
theorem filter_eq_of_forall₂_says {ls ls' : List (List Char)} {ds ds' : List Directive}
    {p : List Char → Bool} {q : Directive → Bool}
    (hpq : ∀ line directive, Says line directive → p line = q directive)
    (h : List.Forall₂ Says ls ds) (h' : List.Forall₂ Says ls' ds')
    (hls : ls.filter p = ls'.filter p) : ds.filter q = ds'.filter q := by
  have hfilter {ls : List (List Char)} {ds : List Directive} (h : List.Forall₂ Says ls ds) :
      List.Forall₂ Says (ls.filter p) (ds.filter q) := by
    refine List.rel_filter (fun line directive hsaid => ?_) h
    simp only [hpq line directive hsaid]
  have hds := hfilter h
  rw [hls] at hds
  have hunique : Relator.RightUnique Says := fun _ _ _ => Says.unique
  exact hunique.forall₂ hds (hfilter h')

theorem filter_unplacedDirectives (ds : List (Location × Directive)) (q : Directive → Bool) :
    (unplacedDirectives ds).filter (fun d => q d.2) =
      ((ds.map Prod.snd).filter q).map (Prod.mk .unknown) := by
  rw [unplacedDirectives, List.filter_map, List.filter_map, List.map_map]
  rfl

/-- Apart from places, the directives of enums and the other directives decide the definitions. -/
theorem Source.unplaced_ofDirectives_congr {ds ds' : List (Location × Directive)}
    (henums : (ds.map Prod.snd).filter (·.isEnum) = (ds'.map Prod.snd).filter (·.isEnum))
    (hothers : (ds.map Prod.snd).filter (!·.isEnum) = (ds'.map Prod.snd).filter (!·.isEnum)) :
    (ofDirectives ds).unplaced = (ofDirectives ds').unplaced := by
  have hsplit (ds : List (Location × Directive)) : (ofDirectives ds).unplaced =
      ⟨enumsOf (((ds.map Prod.snd).filter (·.isEnum)).map (Prod.mk .unknown)),
        familiesOf (((ds.map Prod.snd).filter (!·.isEnum)).map (Prod.mk .unknown))⟩ := by
    rw [unplaced_ofDirectives, ← filter_unplacedDirectives, ← filter_unplacedDirectives,
      enumsOf_filter, familiesOf_filter]
    rfl
  rw [hsplit, hsplit, henums, hothers]

/-- If a text is collected, so is one with the lines of enums in other places. -/
theorem SameButEnums.exists_readSource {source text text' : String} (h : SameButEnums text text')
    {s : Source} (hs : readSource source text = .ok s) :
    ∃ s', readSource source text' = .ok s' ∧ s'.unplaced = s.unplaced := by
  obtain ⟨ds, hls, hleading, rfl⟩ := readSource_eq_ok_iff.1 hs
  have hsaid := forall₂_says hls
  obtain ⟨ds', hls'⟩ : ∃ ds', List.Forall₂ SaysAt (significantLines source text') ds' := by
    refine exists_forall₂ fun line hline => ?_
    have hmem : line.2 ∈ lineContents text' := by
      rw [← significantLines_snd source]
      exact List.mem_map_of_mem hline
    obtain ⟨directive, -, hdirective⟩ := exists_of_forall₂ hsaid (h.mem_iff.2 hmem)
    exact ⟨(line.1, directive), rfl, hdirective⟩
  have hsaid' := forall₂_says hls'
  have henums := filter_eq_of_forall₂_says (fun _ _ => Says.isEnumLine_eq) hsaid hsaid' h.enums
  have hothers := filter_eq_of_forall₂_says (q := (!·.isEnum))
    (fun _ _ hline => congrArg not hline.isEnumLine_eq) hsaid hsaid' h.others
  refine ⟨.ofDirectives ds', readSource_eq_ok_iff.2 ⟨ds', hls', ?_, rfl⟩, ?_⟩
  · -- no entry stands before the first header, in either text
    have hnil (ds : List (Location × Directive)) : leadingEntries ds = [] ↔
        leadingEntries (((ds.map Prod.snd).filter (!·.isEnum)).map (Prod.mk .unknown)) = [] := by
      rw [← filter_unplacedDirectives, leadingEntries_filter, leadingEntries_unplaced,
        List.map_eq_nil_iff]
    rwa [hnil, ← hothers, ← hnil]
  · exact (Source.unplaced_ofDirectives_congr henums hothers).symm

/-- **Texts that say the same become the same**, apart from places: the same registry, the same
error, or an abnormal end. If the texts differ in the places of the lines of enums, and one of them
becomes a registry, so does the other. -/
theorem readLines_rearranged (source text text' : String) :
    (lineContents text = lineContents text' →
      SameOutcome (fun r r' => r.unplaced = r'.unplaced) (readLines source text)
        (readLines source text')) ∧
    (SameButEnums text text' → ∀ r, readLines source text = .ok r →
      ∃ r', readLines source text' = .ok r' ∧ r'.unplaced = r.unplaced) := by
  refine ⟨readLines_alike, fun h r hr => ?_⟩
  obtain ⟨s, hs, hbuild⟩ := bind_eq_ok.1 hr
  obtain ⟨s', hs', hunplaced⟩ := h.exists_readSource hs
  have hbuild' : s'.unplaced.build = .ok r.unplaced := by
    rw [hunplaced, s.build_unplaced, hbuild]
    rfl
  obtain ⟨r', hr', hsame⟩ := Source.exists_build_of_unplaced hbuild'
  exact ⟨r', bind_eq_ok.2 ⟨s', hs', hr'⟩, hsame⟩

/-- The line of an enum inside a section, between comments and blank lines; and a header that is not
closed, on another line. -/
theorem readLines_rearranged_moved :
    (∃ r r', readLines "a" "enum Op : PLUS\n[expr]\nExpr : Node self\nUnary : int op\n" = .ok r ∧
      readLines "a" "[expr] #\r\n Expr : Node self\r\nenum Op : PLUS\n\nUnary : int op" = .ok r' ∧
      r'.unplaced = r.unplaced) ∧
    SameOutcome (fun r r' => r.unplaced = r'.unplaced) (readLines "a" "[expr\nExpr : Node self\n")
      (readLines "a" "# expressions\n\n  [expr\r\nExpr : Node self") := by
  have hr : readLines "a" "enum Op : PLUS\n[expr]\nExpr : Node self\nUnary : int op\n" = .ok
      ⟨[⟨"Op", ["PLUS"]⟩], [⟨"expr", ⟨"Expr", [⟨.value "Node", "self"⟩], ⟨"a", 3, 1⟩⟩,
        [⟨"Unary", [⟨.value "int", "op"⟩], ⟨"a", 4, 1⟩⟩]⟩], [⟨"NODE_UNARY", "Unary", 0⟩]⟩ := by
    decide +kernel
  obtain ⟨r', hr', hsame⟩ := (readLines_rearranged "a" _
    "[expr] #\r\n Expr : Node self\r\nenum Op : PLUS\n\nUnary : int op").2
      ⟨by decide +kernel, by decide +kernel⟩ _ hr
  exact ⟨⟨_, r', hr, hr', hsame⟩, (readLines_rearranged "a" _ _).1 (by decide +kernel)⟩

end NodeSchema

import NodeSchema.Proofs.Registry.Defects

/-!
# The first defect of a source

The enums of a source are checked before its families, and the base records of all families before
the variants. Building stops at the first definition with a defect: all definitions that are checked
before it give a consistent registry, and the definition is at odds with this registry or with
itself.

* `addEnums_eq_error_iff`, `addBases_eq_error_iff`, `addAllVariants_eq_error_iff`: a pass stops at
  the first definition that does.
* `Source.FirstDefect`: **the first defect of a source**, and the definition that has it.
* `Source.build_eq_error_iff_firstDefect`: building reports the first defect, at the location of
  that definition.
-/

namespace NodeSchema

open Names

/-! ### Where the passes stop -/

variable {stop : Stop}

theorem addEnumerators_eq_foldlM (loc : Location) (owner : String) (ms : List String)
    (enumerators : Names) :
    addEnumerators loc owner ms enumerators = ms.foldlM (fun enumerators m =>
      expectIdentifier loc m >>= fun _ => enumerators.declare loc m (.enumerator owner))
        enumerators := by
  induction ms generalizing enumerators with
  | nil => rfl
  | cons m ms ih =>
    rw [addEnumerators, List.foldlM_cons, bind_assoc]
    exact bind_congr fun _ => bind_congr fun enumerators => ih enumerators

/-- Adds an enum to the names. -/
def EnumSource.addName (d : EnumSource) (names : Names) : Except Stop Names :=
  expectIdentifier d.loc d.name >>= fun _ => names.declare d.loc d.name .preludeEnum

/-- Adds an enum to the names and its members to the enumerators. -/
def EnumSource.add (d : EnumSource) (tables : Names × Names) : Except Stop (Names × Names) :=
  d.addName tables.1 >>= fun names =>
    addEnumerators d.loc d.name d.members tables.2 >>= fun enumerators =>
      pure (names, enumerators)

theorem EnumSource.add_eq_error_iff {d : EnumSource} {tables : Names × Names} :
    d.add tables = .error stop ↔ d.addName tables.1 = .error stop ∨
      ∃ names, d.addName tables.1 = .ok names ∧
        addEnumerators d.loc d.name d.members tables.2 = .error stop := by
  rw [add, bind_eq_error]
  simp only [bind_pure_eq_error]

theorem addEnums_eq_foldlM (es : List EnumSource) (names enumerators : Names) :
    addEnums es names enumerators =
      es.foldlM (fun tables d => d.add tables) (names, enumerators) := by
  induction es generalizing names enumerators with
  | nil => rfl
  | cons d es ih =>
    rw [addEnums, List.foldlM_cons, EnumSource.add, EnumSource.addName]
    simp only [bind_assoc, pure_bind, ih]

theorem addEnums_concat (es : List EnumSource) (d : EnumSource) (names enumerators : Names) :
    addEnums (es ++ [d]) names enumerators = addEnums es names enumerators >>= d.add := by
  simp only [addEnums_eq_foldlM, List.foldlM_append, List.foldlM_cons, List.foldlM_nil, bind_pure]

/-- Adds one base record to the families and to the names. -/
def FamilySource.add (s : FamilySource) (state : List Family × Names) :
    Except Stop (List Family × Names) :=
  addBase state.1 state.2 s >>= fun (f, names) => pure (state.1 ++ [f], names)

theorem addBases_eq_foldlM (ss : List FamilySource) (previous : List Family) (names : Names) :
    addBases ss previous names = ss.foldlM (fun state s => s.add state) (previous, names) := by
  induction ss generalizing previous names with
  | nil => rfl
  | cons s ss ih =>
    rw [addBases, List.foldlM_cons, FamilySource.add]
    simp only [bind_assoc, pure_bind, ih]

theorem addEnumerators_eq_error_iff {loc : Location} {owner : String} {ms : List String}
    {enumerators : Names} :
    addEnumerators loc owner ms enumerators = .error stop ↔
      ∃ before m after enumerators', ms = before ++ m :: after ∧
        addEnumerators loc owner before enumerators = .ok enumerators' ∧
        (expectIdentifier loc m >>= fun _ => enumerators'.declare loc m (.enumerator owner)) =
          .error stop := by
  simp only [addEnumerators_eq_foldlM, foldlM_eq_error]

/-- The first pass stops at the first enum that does. -/
theorem addEnums_eq_error_iff {es : List EnumSource} {names enumerators : Names} :
    addEnums es names enumerators = .error stop ↔
      ∃ before d after tables, es = before ++ d :: after ∧
        addEnums before names enumerators = .ok tables ∧ d.add tables = .error stop := by
  simp only [addEnums_eq_foldlM, foldlM_eq_error]

/-- The second pass stops at the first family whose base record does. -/
theorem addBases_eq_error_iff {ss : List FamilySource} {previous : List Family} {names : Names} :
    addBases ss previous names = .error stop ↔
      ∃ before s after fs names', ss = before ++ s :: after ∧
        addBases before previous names = .ok (fs, names') ∧
        addBase fs names' s = .error stop := by
  simp only [addBases_eq_foldlM, foldlM_eq_error, FamilySource.add, bind_pure_eq_error,
    Prod.exists]

theorem addVariants_eq_error_iff {enumerators : Names} {family : ℕ} {es : List EntrySource}
    {tags : List Discriminator} {names : Names} :
    addVariants enumerators family es tags names = .error stop ↔
      ∃ before d after vs tags' names', es = before ++ d :: after ∧
        addVariants enumerators family before tags names = .ok (vs, tags', names') ∧
        addVariant enumerators family d tags' names' = .error stop := by
  induction es generalizing tags names with
  | nil => simp [addVariants]
  | cons d es ih =>
    rw [addVariants, bind_eq_error]
    simp only [bind_pure_eq_error]
    constructor
    · rintro (h | ⟨⟨v, tags₁, names₁⟩, h1, h⟩)
      · exact ⟨[], d, es, [], tags, names, rfl, rfl, h⟩
      · obtain ⟨before, d', after, vs, tags', names', rfl, hbefore, hd'⟩ := ih.1 h
        refine ⟨d :: before, d', after, v :: vs, tags', names', rfl, ?_, hd'⟩
        exact bind_eq_ok.2 ⟨_, h1, bind_eq_ok.2 ⟨_, hbefore, rfl⟩⟩
    · rintro ⟨_ | ⟨d', before⟩, d'', after, vs, tags', names', h, hbefore, hd⟩
      · obtain ⟨rfl, rfl⟩ := List.cons_eq_cons.1 h
        cases hbefore
        exact .inl hd
      · obtain ⟨rfl, rfl⟩ := List.cons_eq_cons.1 h
        obtain ⟨⟨v, tags₁, names₁⟩, h1, hbefore⟩ := bind_eq_ok.1 hbefore
        obtain ⟨⟨vs', tags₂, names₂⟩, hbefore, h2⟩ := bind_eq_ok.1 hbefore
        cases h2
        exact .inr ⟨_, h1, ih.2 ⟨before, d'', after, vs', tags', names', rfl, hbefore, hd⟩⟩

/-- The family without its variants. -/
def FamilySource.baseOnly (s : FamilySource) : FamilySource :=
  { s with entries := s.entries.take 1 }

theorem FamilySource.tail_baseOnly (s : FamilySource) : s.baseOnly.entries.tail = [] := by
  obtain ⟨group, entries, loc⟩ := s
  cases entries <;> rfl

/-- The second pass looks at the base records only. -/
theorem addBases_map_baseOnly (ss : List FamilySource) (previous : List Family) (names : Names) :
    addBases (ss.map FamilySource.baseOnly) previous names = addBases ss previous names := by
  induction ss generalizing previous names with
  | nil => rfl
  | cons s ss ih =>
    have hbase : addBase previous names s.baseOnly = addBase previous names s := by
      unfold addBase
      obtain ⟨group, entries, loc⟩ := s
      cases entries <;> rfl
    simp only [List.map_cons, addBases, hbase, ih]

theorem addBases_congr {ss ss' : List FamilySource}
    (h : ss.map FamilySource.baseOnly = ss'.map FamilySource.baseOnly) (previous : List Family)
    (names : Names) : addBases ss previous names = addBases ss' previous names := by
  rw [← addBases_map_baseOnly ss, h, addBases_map_baseOnly]

/-- The second pass does not look at what is cut off after the base records. -/
theorem addBases_cut {before after : List FamilySource} {f : FamilySource} {b : EntrySource}
    {es ds : List EntrySource} (h : f.entries = b :: (es ++ ds)) (previous : List Family)
    (names : Names) :
    addBases (before ++ { f with entries := b :: es } :: after.map FamilySource.baseOnly) previous
      names = addBases (before ++ f :: after) previous names :=
  addBases_congr (by simp [FamilySource.baseOnly, h, List.take_take]) previous names

section

variable {enumerators : Names} {start : ℕ} {s : FamilySource} {ss : List FamilySource} {f : Family}
  {fs : List Family}

/-- The third pass over a family and those after it. -/
theorem addAllVariants_cons_eq_ok {tags : List Discriminator} {names : Names}
    {result : List Family × List Discriminator} :
    addAllVariants enumerators start (s :: ss) (f :: fs) tags names = .ok result ↔
      ∃ vs tags' names',
        addVariants enumerators start s.entries.tail tags names = .ok (vs, tags', names') ∧
        ∃ fs' tags'',
          addAllVariants enumerators (start + 1) ss fs tags' names' = .ok (fs', tags'') ∧
          ({ f with variants := vs } :: fs', tags'') = result := by
  simp only [addAllVariants, bind_eq_ok, Prod.exists, pure, Except.pure, Except.ok.injEq]

/-- Families without variants pass the third pass. -/
theorem addAllVariants_map_baseOnly (h : fs.length = ss.length) (tags : List Discriminator)
    (names : Names) :
    addAllVariants enumerators start (ss.map FamilySource.baseOnly) fs tags names =
      .ok (fs.map Family.bare, tags) := by
  induction ss generalizing start fs with
  | nil =>
    obtain rfl := List.length_eq_zero_iff.1 h
    rfl
  | cons s ss ih =>
    obtain ⟨f, fs, rfl⟩ := List.exists_cons_of_length_eq_add_one h
    refine addAllVariants_cons_eq_ok.2 ⟨[], tags, names, ?_, _, _, ih (by simpa using h), rfl⟩
    rw [s.tail_baseOnly]
    rfl

/-- If no variants come after those of a family, the third pass goes over these only. -/
theorem addAllVariants_cut_eq_ok (h : fs.length = ss.length) {b : EntrySource}
    {es : List EntrySource} {tags tags' : List Discriminator} {names : Names} {fs' : List Family} :
    addAllVariants enumerators start ({ s with entries := b :: es } :: ss.map FamilySource.baseOnly)
      (f :: fs) tags names = .ok (fs', tags') ↔
      ∃ vs names', addVariants enumerators start es tags names = .ok (vs, tags', names') ∧
        { f with variants := vs } :: fs.map Family.bare = fs' := by
  rw [addAllVariants_cons_eq_ok]
  simp only [addAllVariants_map_baseOnly h]
  constructor
  · rintro ⟨vs, _, names', hvs, _, _, hrest, heq⟩
    cases hrest
    cases heq
    exact ⟨vs, names', hvs, rfl⟩
  · rintro ⟨vs, names', hvs, rfl⟩
    exact ⟨vs, tags', names', hvs, _, _, rfl, rfl⟩

/-- The third pass stops at the first variant that does. By then, the names of the variants before
it are taken. -/
theorem addAllVariants_eq_error_iff (hlen : fs.length = ss.length) {tags : List Discriminator}
    {names : Names} (hn : names.Distinct) (ht : TagsDistinct tags) :
    addAllVariants enumerators start ss fs tags names = .error stop ↔
      ∃ before s after b es d ds fs' tags', ss = before ++ s :: after ∧
        s.entries = b :: (es ++ d :: ds) ∧
        addAllVariants enumerators start
          (before ++ { s with entries := b :: es } :: after.map FamilySource.baseOnly) fs tags
            names = .ok (fs', tags') ∧
        addVariant enumerators (start + before.length) d tags'
          ((variantEntries (fs'.flatMap (·.variants))).reverse ++ names) = .error stop := by
  induction ss generalizing start fs tags names with
  | nil => simp [addAllVariants]
  | cons s ss ih =>
    obtain ⟨f, fs, rfl⟩ := List.exists_cons_of_length_eq_add_one hlen
    have hlen : fs.length = ss.length := by simpa using hlen
    have hbare (vs : List Record) :
        ({ f with variants := vs } :: fs.map Family.bare).flatMap (·.variants) = vs := by
      simp [Family.bare, List.flatMap_map]
    rw [addAllVariants, bind_eq_error, addVariants_eq_error_iff]
    simp only [bind_pure_eq_error]
    constructor
    · rintro (⟨es, d, ds, vs, tags', names', htail, hes, hd⟩ | ⟨⟨vs, tags₁, names₁⟩, h1, h⟩)
      · obtain ⟨b, hentries⟩ : ∃ b, s.entries = b :: (es ++ d :: ds) := by
          cases hs : s.entries with
          | nil => simp [hs] at htail
          | cons b rest =>
            rw [hs, List.tail_cons] at htail
            exact ⟨b, by rw [htail]⟩
        obtain ⟨-, -, -, -, rfl, -⟩ := (addVariants_ok_iff hn ht).1 hes
        refine ⟨[], s, ss, b, es, d, ds, _, tags', rfl, hentries,
          (addAllVariants_cut_eq_ok hlen).2 ⟨vs, _, hes, rfl⟩, ?_⟩
        rwa [hbare]
      · obtain ⟨-, -, -, ht1, rfl, hn1⟩ := (addVariants_ok_iff hn ht).1 h1
        obtain ⟨before, s', after, b, es, d, ds, fs', tags', rfl, hentries, hbefore, hd⟩ :=
          (ih hlen hn1 ht1).1 h
        refine ⟨s :: before, s', after, b, es, d, ds, _, tags', rfl, hentries,
          addAllVariants_cons_eq_ok.2 ⟨vs, _, _, h1, fs', tags', hbefore, rfl⟩, ?_⟩
        rw [List.flatMap_cons, reverse_variantEntries_append, List.length_cons]
        rwa [Nat.add_right_comm] at hd
    · rintro ⟨_ | ⟨s', before⟩, s'', after, b, es, d, ds, fs', tags', h, hentries, hbefore, hd⟩
      · obtain ⟨rfl, rfl⟩ := List.cons_eq_cons.1 h
        obtain ⟨vs, names', hes, rfl⟩ := (addAllVariants_cut_eq_ok hlen).1 hbefore
        obtain ⟨-, -, -, -, rfl, -⟩ := (addVariants_ok_iff hn ht).1 hes
        rw [hbare] at hd
        exact .inl ⟨es, d, ds, vs, _, _, by rw [hentries, List.tail_cons], hes, hd⟩
      · obtain ⟨rfl, rfl⟩ := List.cons_eq_cons.1 h
        obtain ⟨vs, tags₁, names₁, h1, fs₂, _, hbefore, heq⟩ := addAllVariants_cons_eq_ok.1 hbefore
        cases heq
        obtain ⟨-, -, -, ht1, rfl, hn1⟩ := (addVariants_ok_iff hn ht).1 h1
        rw [List.flatMap_cons, reverse_variantEntries_append, List.length_cons] at hd
        refine .inr ⟨_, h1, (ih hlen hn1 ht1).2 ?_⟩
        refine ⟨before, s'', after, b, es, d, ds, fs₂, tags', rfl, hentries, hbefore, ?_⟩
        rwa [Nat.add_right_comm]

end

/-! ### What is given before a definition -/

namespace Source

/-- The source gives this registry. -/
structure Gives (s : Source) (r : Registry) : Prop where
  declares : s.Declares r
  consistent : r.Consistent

/-- The passes over the source give this registry, and they end with its names. -/
structure Passes (s : Source) (r : Registry) : Prop where
  enums : addEnums s.enums initial [] =
    .ok ((enumEntries s.enums).reverse ++ initial, (enumeratorEntries s.enums).reverse)
  bases : addBases s.families [] ((enumEntries s.enums).reverse ++ initial) =
    .ok (r.families.map Family.bare,
      (baseEntries r.families).reverse ++ ((enumEntries s.enums).reverse ++ initial))
  variants : addAllVariants (enumeratorEntries s.enums).reverse 0 s.families
    (r.families.map Family.bare) []
    ((baseEntries r.families).reverse ++ ((enumEntries s.enums).reverse ++ initial)) =
      .ok (r.families, r.discriminators)

variable {s : Source} {r : Registry} {stop : Stop}

theorem gives_of_build (h : s.build = .ok r) : s.Gives r := by
  obtain ⟨hd, hc⟩ := declares_of_build h
  exact ⟨hd, hc⟩

theorem Gives.passes (h : s.Gives r) : s.Passes r := by
  obtain ⟨⟨names, enumerators⟩, h1, h⟩ := bind_eq_ok.1 (build_of_declares h.1 h.2)
  obtain ⟨-, rfl, hn, rfl, -⟩ := (addEnums_ok_iff distinct_initial distinct_nil).1 h1
  obtain ⟨⟨bases, names⟩, h2, h⟩ := bind_eq_ok.1 h
  obtain ⟨_, rfl, hbs, -, -, rfl, hn⟩ := (addBases_ok_iff hn (by simp) (by simp)).1 h2
  obtain ⟨⟨fs, tags⟩, h3, h⟩ := bind_eq_ok.1 h
  cases h
  obtain ⟨rfl, -, -, -, -, -⟩ := (addAllVariants_ok_iff hbs hn tagsDistinct_nil).1 h3
  rw [baseEntries_bare] at h2 h3
  rw [List.append_nil] at h1 h3
  exact ⟨h1, h2, h3⟩

/-- If all passes succeed, they give a registry. -/
theorem exists_gives {es : List EnumSource} {ss : List FamilySource}
    {names enumerators names' : Names} {bases fs : List Family} {tags : List Discriminator}
    (h1 : addEnums es initial [] = .ok (names, enumerators))
    (h2 : addBases ss [] names = .ok (bases, names'))
    (h3 : addAllVariants enumerators 0 ss bases [] names' = .ok (fs, tags)) :
    ∃ r, Gives ⟨es, ss⟩ r ∧ fs = r.families ∧ tags = r.discriminators ∧
      names = (enumEntries es).reverse ++ initial ∧
      enumerators = (enumeratorEntries es).reverse ∧
      bases = r.families.map Family.bare ∧ names' = (baseEntries r.families).reverse ++ names := by
  have hbuild : build ⟨es, ss⟩ = .ok ⟨es.map fun e => ⟨e.name, e.members⟩, fs, tags⟩ :=
    bind_eq_ok.2 ⟨_, h1, bind_eq_ok.2 ⟨_, h2, bind_eq_ok.2 ⟨_, h3, rfl⟩⟩⟩
  have hgives := gives_of_build hbuild
  obtain ⟨henums, hbases, -⟩ := hgives.passes
  cases h1.symm.trans henums
  cases h2.symm.trans hbases
  exact ⟨_, hgives, rfl, rfl, rfl, rfl, rfl, rfl⟩

/-- The names that are taken when the first pass ends. -/
theorem typeEntries_nil (es : List EnumSource) :
    typeEntries es [] = (enumEntries es).reverse ++ initial :=
  rfl

/-- If families have no variants, the names after the second pass are all. -/
theorem typeEntries_of_variants_eq_nil {es : List EnumSource} {fs : List Family}
    (h : ∀ f ∈ fs, f.variants = []) :
    typeEntries es fs = (baseEntries fs).reverse ++ ((enumEntries es).reverse ++ initial) := by
  have hnil : fs.flatMap (·.variants) = [] := List.flatMap_eq_nil_iff.2 h
  simp [typeEntries, hnil, variantEntries]

section

variable {es : List EnumSource} {ss : List FamilySource} {names enumerators names' : Names}
  {bases : List Family}

/-- Enums that pass the first pass give a registry. -/
theorem exists_gives_enums (h : addEnums es initial [] = .ok (names, enumerators)) :
    ∃ r, Gives ⟨es, []⟩ r ∧ names = typeEntries es r.families ∧
      enumerators = (enumeratorEntries es).reverse := by
  have hbases : addBases [] [] names = .ok ([], names) := rfl
  have hvariants : addAllVariants enumerators 0 [] [] [] names = .ok ([], []) := rfl
  obtain ⟨r, hgives, hfs, -, hnames, henumerators, -, -⟩ := exists_gives h hbases hvariants
  refine ⟨r, hgives, ?_, henumerators⟩
  rwa [← hfs, typeEntries_nil]

theorem Gives.addEnums_eq_ok (h : Gives ⟨es, []⟩ r) :
    addEnums es initial [] =
      .ok (typeEntries es r.families, (enumeratorEntries es).reverse) := by
  have hnil : r.families = [] := List.forall₂_nil_left_iff.1 h.declares.families
  rw [hnil, typeEntries_nil]
  exact h.passes.enums

/-- Families that pass the second pass give a registry of base records. -/
theorem exists_gives_bases (h1 : addEnums es initial [] = .ok (names, enumerators))
    (h2 : addBases ss [] names = .ok (bases, names')) :
    ∃ r, Gives ⟨es, ss.map FamilySource.baseOnly⟩ r ∧ bases = r.families ∧
      names' = typeEntries es r.families := by
  obtain ⟨-, -, hn, -, -⟩ := (addEnums_ok_iff distinct_initial distinct_nil).1 h1
  obtain ⟨_, rfl, hbs, -⟩ := (addBases_ok_iff hn (by simp) (by simp)).1 h2
  obtain ⟨r, hgives, hfs, -, rfl, -, hbases, rfl⟩ :=
    exists_gives h1 ((addBases_map_baseOnly ..).trans h2)
      (addAllVariants_map_baseOnly hbs.length_eq.symm ..)
  have hvariants : ∀ f ∈ r.families, f.variants = [] := by
    rw [← hfs]
    simp [Family.bare]
  refine ⟨r, hgives, ?_, (typeEntries_of_variants_eq_nil hvariants).symm⟩
  calc bases = r.families.map Family.bare := hbases
    _ = (bases.map Family.bare).map Family.bare := by rw [hfs]
    _ = bases.map Family.bare := by simp [Family.bare]
    _ = r.families := hfs

theorem Gives.addBases_eq_ok (h : Gives ⟨es, ss.map FamilySource.baseOnly⟩ r) :
    addBases ss [] ((enumEntries es).reverse ++ initial) =
      .ok (r.families, typeEntries es r.families) := by
  have hbases := (addBases_map_baseOnly ..).symm.trans h.passes.bases
  obtain ⟨r', hgives, hbare, hnames⟩ := exists_gives_bases h.passes.enums hbases
  have hr : r = r' :=
    Except.ok.inj ((build_of_declares h.1 h.2).symm.trans (build_of_declares hgives.1 hgives.2))
  subst hr
  rw [hbases, hnames, hbare]

end

end Source

/-! ### The first defect -/

/-- A definition of a source. -/
inductive Definition
  | enum (d : EnumSource)
  | family (s : FamilySource)
  | entry (d : EntrySource)

/-- The location that is given for a definition. -/
def Definition.loc : Definition → Location
  | enum d => d.loc
  | family s => s.loc
  | entry d => d.loc

namespace Source

/-- **The first defect of a source**: the definitions that are checked before it give a registry,
and the definition is at odds with this registry or with itself.

The enums are checked in their order, each with its name before its members. Then come the families,
each with its group before its base record, and in the end the variants. -/
inductive FirstDefect (s : Source) : Definition → Stop → Prop
  | enum {before after : List EnumSource} {d : EnumSource} {r : Registry} {e : Error} :
      s.enums = before ++ d :: after → Gives ⟨before, []⟩ r →
      NameDefect d.loc d.name (r.Holds d.name) e → s.FirstDefect (.enum d) (.error e)
  | member {before after : List EnumSource} {d : EnumSource} {ms rest : List String} {m : String}
      {r : Registry} {e : Error} :
      s.enums = before ++ d :: after → d.members = ms ++ m :: rest →
      Gives ⟨before ++ [{ d with members := ms }], []⟩ r →
      NameDefect d.loc m (r.HoldsMember m) e → s.FirstDefect (.enum d) (.error e)
  | family {before after : List FamilySource} {f : FamilySource} {r : Registry} {e : Error} :
      s.families = before ++ f :: after →
      Gives ⟨s.enums, before.map FamilySource.baseOnly⟩ r →
      f.GroupDefect r e → s.FirstDefect (.family f) (.error e)
  | base {before after : List FamilySource} {f : FamilySource} {d : EntrySource}
      {ds : List EntrySource} {r : Registry} {stop : Stop} :
      s.families = before ++ f :: after → f.entries = d :: ds →
      Gives ⟨s.enums, before.map FamilySource.baseOnly⟩ r → f.GroupFree r →
      d.Defect (Record.BaseDefect r (containerType f.group)) stop → s.FirstDefect (.entry d) stop
  | variant {before after : List FamilySource} {f : FamilySource} {b d : EntrySource}
      {es ds : List EntrySource} {r : Registry} {stop : Stop} :
      s.families = before ++ f :: after → f.entries = b :: (es ++ d :: ds) →
      Gives ⟨s.enums,
        before ++ { f with entries := b :: es } :: after.map FamilySource.baseOnly⟩ r →
      d.Defect (Record.VariantDefect r) stop → s.FirstDefect (.entry d) stop

variable {s : Source} {r : Registry} {stop : Stop}

/-- **An enum fails for its name or for a member**, after the enums and the members before. -/
theorem add_eq_error_iff_nameDefect {before : List EnumSource} {d : EnumSource} :
    (∃ tables, addEnums before initial [] = .ok tables ∧ d.add tables = .error stop) ↔
      (∃ r e, Gives ⟨before, []⟩ r ∧ NameDefect d.loc d.name (r.Holds d.name) e ∧
        stop = .error e) ∨
      ∃ ms m rest r e, d.members = ms ++ m :: rest ∧
        Gives ⟨before ++ [{ d with members := ms }], []⟩ r ∧
        NameDefect d.loc m (r.HoldsMember m) e ∧ stop = .error e := by
  simp only [EnumSource.add_eq_error_iff]
  constructor
  · rintro ⟨⟨names, enumerators⟩, hbefore, hname | ⟨names', hname, hfails⟩⟩
    · obtain ⟨r, hgives, rfl, rfl⟩ := exists_gives_enums hbefore
      have hlists := hgives.consistent.lists_typeEntries hgives.declares.enums
      obtain ⟨e, hdefect, rfl⟩ := (declare_identifier_eq_error_iff hlists).1 hname
      exact .inl ⟨r, e, hgives, hdefect, rfl⟩
    · obtain ⟨ms, m, rest, enumerators', hmembers, hms, hm⟩ :=
        addEnumerators_eq_error_iff.1 hfails
      have hprefix : addEnums (before ++ [{ d with members := ms }]) initial [] =
          .ok (names', enumerators') := by
        rw [addEnums_concat]
        exact bind_eq_ok.2 ⟨_, hbefore, bind_eq_ok.2 ⟨_, hname, bind_eq_ok.2 ⟨_, hms, rfl⟩⟩⟩
      obtain ⟨r, hgives, -, rfl⟩ := exists_gives_enums hprefix
      have hlists := hgives.consistent.lists_enumeratorEntries hgives.declares.enums
      obtain ⟨e, hdefect, rfl⟩ := (declare_identifier_eq_error_iff hlists).1 hm
      exact .inr ⟨ms, m, rest, r, e, hmembers, hgives, hdefect, rfl⟩
  · rintro (⟨r, e, hgives, hdefect, rfl⟩ | ⟨ms, m, rest, r, e, hmembers, hgives, hdefect, rfl⟩)
    · have hlists := hgives.consistent.lists_typeEntries hgives.declares.enums
      exact ⟨_, hgives.addEnums_eq_ok,
        .inl ((declare_identifier_eq_error_iff hlists).2 ⟨e, hdefect, rfl⟩)⟩
    · have hlists := hgives.consistent.lists_enumeratorEntries hgives.declares.enums
      have hprefix := hgives.addEnums_eq_ok
      rw [addEnums_concat] at hprefix
      obtain ⟨tables, hbefore, hd⟩ := bind_eq_ok.1 hprefix
      obtain ⟨names', hname, hd⟩ := bind_eq_ok.1 hd
      obtain ⟨enumerators', hms, hd⟩ := bind_eq_ok.1 hd
      cases hd
      refine ⟨tables, hbefore, .inr ⟨_, hname, ?_⟩⟩
      exact addEnumerators_eq_error_iff.2 ⟨ms, m, rest, _, hmembers, hms,
        (declare_identifier_eq_error_iff hlists).2 ⟨e, hdefect, rfl⟩⟩

theorem exists_firstDefect_of_addEnums (h : addEnums s.enums initial [] = .error stop) :
    ∃ d, s.FirstDefect d stop := by
  obtain ⟨before, d, after, tables, henums, hbefore, hd⟩ := addEnums_eq_error_iff.1 h
  rcases add_eq_error_iff_nameDefect.1 ⟨tables, hbefore, hd⟩ with
    ⟨r, e, hgives, hdefect, rfl⟩ | ⟨ms, m, rest, r, e, hmembers, hgives, hdefect, rfl⟩
  · exact ⟨_, .enum henums hgives hdefect⟩
  · exact ⟨_, .member henums hmembers hgives hdefect⟩

theorem exists_firstDefect_of_addBases {names enumerators : Names}
    (h1 : addEnums s.enums initial [] = .ok (names, enumerators))
    (h : addBases s.families [] names = .error stop) : ∃ d, s.FirstDefect d stop := by
  obtain ⟨before, f, after, fs, names', hfamilies, hbefore, hf⟩ := addBases_eq_error_iff.1 h
  obtain ⟨r, hgives, rfl, rfl⟩ := exists_gives_bases h1 hbefore
  have hnames := hgives.consistent.lists_typeEntries hgives.declares.enums
  rcases (addBase_eq_error_iff hnames).1 hf with
    ⟨e, hdefect, rfl⟩ | ⟨hfree, d, ds, hentries, hdefect⟩
  · exact ⟨_, .family hfamilies hgives hdefect⟩
  · exact ⟨_, .base hfamilies hentries hgives hfree hdefect⟩

theorem exists_firstDefect_of_addAllVariants {names enumerators names' : Names}
    {bases : List Family} (h1 : addEnums s.enums initial [] = .ok (names, enumerators))
    (h2 : addBases s.families [] names = .ok (bases, names'))
    (h : addAllVariants enumerators 0 s.families bases [] names' = .error stop) :
    ∃ d, s.FirstDefect d stop := by
  obtain ⟨-, -, hn, -, -⟩ := (addEnums_ok_iff distinct_initial distinct_nil).1 h1
  obtain ⟨_, rfl, hbs, -, -, -, hn'⟩ := (addBases_ok_iff hn (by simp) (by simp)).1 h2
  obtain ⟨before, f, after, b, es, d, ds, fs, tags, hfamilies, hentries, hbefore, hd⟩ :=
    (addAllVariants_eq_error_iff hbs.length_eq.symm hn' tagsDistinct_nil).1 h
  -- the second pass sees no difference between the source and the part before the variant
  rw [hfamilies, ← addBases_cut hentries] at h2
  obtain ⟨r, hgives, rfl, rfl, rfl, rfl, -, rfl⟩ :=
    exists_gives h1 h2 hbefore
  have hdefect := (addVariant_eq_error_iff
    (hgives.consistent.lists_typeEntries hgives.declares.enums)
    (hgives.consistent.lists_enumeratorEntries hgives.declares.enums) hgives.consistent
    hgives.declares.discriminators).1 hd
  exact ⟨_, .variant hfamilies hentries hgives hdefect⟩

/-- Building fails with the first defect. -/
theorem FirstDefect.build_eq_error {d : Definition} (h : s.FirstDefect d stop) :
    s.build = .error stop := by
  unfold build
  cases h with
  | enum henums hgives hdefect =>
    obtain ⟨tables, hbefore, hd⟩ :=
      add_eq_error_iff_nameDefect.2 (.inl ⟨_, _, hgives, hdefect, rfl⟩)
    exact bind_eq_error.2 (.inl (addEnums_eq_error_iff.2 ⟨_, _, _, tables, henums, hbefore, hd⟩))
  | member henums hmembers hgives hdefect =>
    obtain ⟨tables, hbefore, hd⟩ :=
      add_eq_error_iff_nameDefect.2 (.inr ⟨_, _, _, _, _, hmembers, hgives, hdefect, rfl⟩)
    exact bind_eq_error.2 (.inl (addEnums_eq_error_iff.2 ⟨_, _, _, tables, henums, hbefore, hd⟩))
  | family hfamilies hgives hdefect =>
    have hnames := hgives.consistent.lists_typeEntries hgives.declares.enums
    refine bind_eq_error.2 (.inr ⟨_, hgives.passes.enums, bind_eq_error.2 (.inl ?_)⟩)
    exact addBases_eq_error_iff.2 ⟨_, _, _, _, _, hfamilies, hgives.addBases_eq_ok,
      (addBase_eq_error_iff hnames).2 (.inl ⟨_, hdefect, rfl⟩)⟩
  | base hfamilies hentries hgives hfree hdefect =>
    have hnames := hgives.consistent.lists_typeEntries hgives.declares.enums
    refine bind_eq_error.2 (.inr ⟨_, hgives.passes.enums, bind_eq_error.2 (.inl ?_)⟩)
    exact addBases_eq_error_iff.2 ⟨_, _, _, _, _, hfamilies, hgives.addBases_eq_ok,
      (addBase_eq_error_iff hnames).2 (.inr ⟨hfree, _, _, hentries, hdefect⟩)⟩
  | variant hfamilies hentries hgives hdefect =>
    obtain ⟨h1, h2, h3⟩ := hgives.passes
    rw [addBases_cut hentries, ← hfamilies] at h2
    obtain ⟨-, -, hn, -, -⟩ := (addEnums_ok_iff distinct_initial distinct_nil).1 h1
    obtain ⟨_, hnew, hbs, -, -, -, hn'⟩ := (addBases_ok_iff hn (by simp) (by simp)).1 h2
    obtain rfl := hnew
    refine bind_eq_error.2 (.inr ⟨_, h1, bind_eq_error.2 (.inr ⟨_, h2, ?_⟩)⟩)
    refine bind_pure_eq_error.2 ((addAllVariants_eq_error_iff hbs.length_eq.symm hn'
      tagsDistinct_nil).2 ⟨_, _, _, _, _, _, _, _, _, hfamilies, hentries, h3, ?_⟩)
    exact (addVariant_eq_error_iff
      (hgives.consistent.lists_typeEntries hgives.declares.enums)
      (hgives.consistent.lists_enumeratorEntries hgives.declares.enums) hgives.consistent
      hgives.declares.discriminators).2 hdefect

/-- **Building fails exactly with the first defect.** -/
theorem build_eq_error_iff_exists_firstDefect :
    s.build = .error stop ↔ ∃ d, s.FirstDefect d stop := by
  constructor
  · intro h
    rcases bind_eq_error.1 h with h | ⟨⟨names, enumerators⟩, h1, h⟩
    · exact exists_firstDefect_of_addEnums h
    · rcases bind_eq_error.1 h with h | ⟨⟨bases, names'⟩, h2, h⟩
      · exact exists_firstDefect_of_addBases h1 h
      · exact exists_firstDefect_of_addAllVariants h1 h2 (bind_pure_eq_error.1 h)
  · exact fun ⟨d, h⟩ => h.build_eq_error

/-! ### The location of the first defect -/

theorem FirstDefect.location?_eq {d : Definition} {e : Error} (h : s.FirstDefect d (.error e)) :
    e.location? = some d.loc := by
  cases h with
  | enum _ _ hdefect => cases hdefect <;> rfl
  | member _ _ _ hdefect => cases hdefect <;> rfl
  | family _ _ hdefect => cases hdefect <;> rfl
  | base _ _ _ _ hdefect =>
    exact hdefect.location?_eq fun v e hcheck => by cases hcheck <;> rfl
  | variant _ _ _ hdefect =>
    exact hdefect.location?_eq fun v e hcheck => by cases hcheck <;> rfl

/-- **Building reports the first defect, at the location of the definition that has it.** -/
theorem build_eq_error_iff_firstDefect (s : Source) (e : Error) :
    s.build = .error (.error e) ↔ ∃ d, s.FirstDefect d (.error e) ∧ e.location? = some d.loc := by
  rw [build_eq_error_iff_exists_firstDefect]
  constructor
  · exact fun ⟨d, h⟩ => ⟨d, h, h.location?_eq⟩
  · exact fun ⟨d, h, _⟩ => ⟨d, h⟩

end Source

end NodeSchema

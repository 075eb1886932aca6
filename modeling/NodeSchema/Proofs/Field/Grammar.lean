import NodeSchema.Proofs.Field.Faults

/-!
# The grammar of fields

Reading a field goes backwards: it looks for the name at the end, skips the pointer markers before it,
and takes what is left apart into words. The grammar goes forwards: words with blanks between them, a
gap of blanks and pointer markers, and a name. The two agree, also on which texts are no fields, and
why.

* `Row`: words with blanks between any two of them. `exists_row`: every text that ends in a word is a
  row, apart from blanks before it.
* `Spells`: **the text of a field.** `Misses`: what is wrong with a text that is none.
* `readField_eq_ok_iff`, `readField_eq_error_iff`: what is read, and what is reported.
-/

namespace NodeSchema

open Text

/-! ### Rows of words -/

/-- The text is a row of words, with blanks between any two of them. -/
inductive Row : List (List Char) → List Char → Prop
  | word {w : List Char} : w ≠ [] → (∀ c ∈ w, isBlank c = false) → Row [w] w
  | cons {w gap s : List Char} {ws : List (List Char)} :
      w ≠ [] → (∀ c ∈ w, isBlank c = false) → gap ≠ [] → (∀ c ∈ gap, isBlank c) → Row ws s →
        Row (w :: ws) (w ++ gap ++ s)

namespace Row

variable {ws : List (List Char)} {s : List Char}

/-- A row is taken apart into its words. -/
theorem words_eq (h : Row ws s) : words s = ws := by
  induction h with
  | word hne hw => exact words_of_not_blank hne hw
  | cons hne hw hgap hblank _ ih =>
    rw [words_append_gap hgap hblank, words_of_not_blank hne hw, ih]
    rfl

theorem ne_nil (h : Row ws s) : ws ≠ [] := by
  cases h <;> simp

/-- A row ends in the last character of its last word. -/
theorem exists_concat (h : Row ws s) : ∃ t c w, s = t ++ [c] ∧ w ∈ ws ∧ c ∈ w := by
  induction h with
  | @word w hne _ =>
    exact ⟨w.dropLast, w.getLast hne, w, (List.dropLast_concat_getLast hne).symm,
      List.mem_singleton_self w, List.getLast_mem hne⟩
  | @cons w gap s ws _ _ _ _ _ ih =>
    obtain ⟨t, c, v, rfl, hv, hc⟩ := ih
    exact ⟨w ++ gap ++ t, c, v, (List.append_assoc _ _ _).symm, List.mem_cons_of_mem w hv, hc⟩

/-- A character before a row belongs to its first word. -/
theorem exists_extend (h : Row ws s) {c : Char} (hc : isBlank c = false) :
    ∃ ws', Row ws' (c :: s) := by
  cases h with
  | word _ hw => exact ⟨[c :: s], .word (by simp) (List.forall_mem_cons.2 ⟨hc, hw⟩)⟩
  | @cons w gap s ws _ hw hgap hblank hs =>
    exact ⟨(c :: w) :: ws,
      .cons (w := c :: w) (by simp) (List.forall_mem_cons.2 ⟨hc, hw⟩) hgap hblank hs⟩

end Row

/-- **A text that ends in a word is a row of words**, apart from blanks before it. -/
theorem exists_row {s : List Char} (hne : s ≠ []) (hlast : ∀ c ∈ s.getLast?, isBlank c = false) :
    ∃ gap ws t, s = gap ++ t ∧ (∀ c ∈ gap, isBlank c) ∧ Row ws t := by
  induction s with
  | nil => exact (hne rfl).elim
  | cons c s ih =>
    rcases List.eq_nil_or_concat' s with rfl | ⟨s', d, rfl⟩
    · exact ⟨[], [[c]], [c], rfl, by simp, .word (by simp) (by simpa using hlast)⟩
    have hlast' : ∀ e ∈ (s' ++ [d]).getLast?, isBlank e = false := by
      rw [← List.cons_append, List.getLast?_concat] at hlast
      rwa [List.getLast?_concat]
    obtain ⟨gap, ws, t, hs, hgap, ht⟩ := ih (by simp) hlast'
    rw [hs]
    cases hc : isBlank c with
    | true => exact ⟨c :: gap, ws, t, rfl, List.forall_mem_cons.2 ⟨hc, hgap⟩, ht⟩
    | false =>
      by_cases hnil : gap = []
      · obtain ⟨ws', ht'⟩ := ht.exists_extend hc
        exact ⟨[], ws', c :: t, by rw [hnil]; rfl, by simp, ht'⟩
      · refine ⟨[], [c] :: ws, [c] ++ gap ++ t, rfl, by simp, ?_⟩
        exact .cons (by simp) (by simpa using hc) hnil hgap ht

/-! ### Fields -/

/-- A text has the parts of a field: a row of words of C, a gap, and an identifier. -/
structure FieldParts (s : List Char) (f : Field) (ws : List (List Char)) (row gap : List Char) :
    Prop where
  text : s = row ++ gap ++ f.name.toList
  words : Row ws row
  isWord : ∀ w ∈ ws, isWord w
  gap_ne_nil : gap ≠ []
  isGapChar : ∀ c ∈ gap, isGapChar c
  name : isIdentifier f.name
  /-- In the field, there are single spaces between the words. -/
  base : f.type.base.toList = [' '].intercalate ws
  depth : f.type.depth = gap.count '*'

/-- **The text of a field.** -/
def Spells (s : List Char) (f : Field) : Prop :=
  ∃ ws row gap, FieldParts s f ws row gap

theorem not_spells_nil (f : Field) : ¬ Spells [] f := by
  rintro ⟨ws, row, gap, h⟩
  have hne := h.gap_ne_nil
  have htext := h.text
  simp_all

/-- **What is wrong with a text that is no field.** -/
inductive Misses : List Char → FieldFault → Prop
  | empty : Misses [] .empty
  /-- There is nothing before the name. -/
  | onlyIdentifier {s : List Char} : s ≠ [] → (∀ c ∈ s, isWordChar c) → Misses s .onlyIdentifier
  /-- What stands in the place of the name is empty or starts with a digit. -/
  | badName {front name : List Char} {c : Char} :
      isWordChar c = false → (∀ d ∈ name, isWordChar d) → ¬ isWord name →
        Misses (front ++ c :: name) .badName
  /-- There is only a gap before the name. -/
  | noType {gap name : List Char} :
      gap ≠ [] → (∀ c ∈ gap, isGapChar c) → isWord name → Misses (gap ++ name) .noType
  /-- There is more than a gap before the name, but this is no row of words with a gap behind it. -/
  | badType {front name : List Char} {c : Char} :
      isWordChar c = false → isWord name → (∃ d ∈ front ++ [c], isGapChar d = false) →
        (∀ f, ¬ Spells (front ++ c :: name) f) → Misses (front ++ c :: name) .badType

/-! ### Reading types -/

theorem exists_gap (s : List Char) :
    ∃ gap rest, s = gap ++ rest ∧ (∀ c ∈ gap, isGapChar c) ∧
      ∀ c ∈ rest.head?, isGapChar c = false := by
  refine ⟨s.takeWhile isGapChar, s.dropWhile isGapChar, List.takeWhile_append_dropWhile.symm,
    fun c hc => List.mem_takeWhile_imp hc, fun c hc => ?_⟩
  have hhead := List.head?_dropWhile_not isGapChar s
  rw [hc] at hhead
  exact hhead

/-- **What reading a type finds**: a gap with nothing before it, or a row of words with a gap behind
it. The row does not end in a character of a gap. -/
theorem readTypeReversed_cases {front : List Char} (hfirst : ∀ c ∈ front.head?, isBlank c = false) :
    ((∀ c ∈ front, isGapChar c) ∧ readTypeReversed front.reverse = .error .noType) ∨
      ∃ ws row gap, front = row ++ gap ∧ Row ws row ∧ (∀ c ∈ gap, isGapChar c) ∧
        (∃ c ∈ row, isGapChar c = false) ∧
        readTypeReversed front.reverse =
          if ws.all isWord then .ok ⟨String.ofList ([' '].intercalate ws), gap.count '*'⟩
          else .error .badType := by
  obtain ⟨gap, rest, hsplit, hgap, hrest⟩ := exists_gap front.reverse
  have hskip := skipMarkers_append hgap hrest
  rw [← hsplit] at hskip
  cases rest with
  | nil =>
    rw [List.append_nil] at hsplit
    refine .inl ⟨fun c hc => hgap c (hsplit ▸ List.mem_reverse.2 hc), ?_⟩
    rw [readTypeReversed, hskip]
    rfl
  | cons c rest =>
    have hc : isGapChar c = false := hrest c rfl
    have hblank : isBlank c = false := (Bool.or_eq_false_iff.1 hc).1
    obtain ⟨before, ws, row, hrow, hbefore, h⟩ := exists_row (s := (c :: rest).reverse) (by simp)
      (by simpa using hblank)
    have hfront : front = before ++ row ++ gap.reverse := by
      rw [← hrow, ← List.reverse_append, ← hsplit, List.reverse_reverse]
    -- the text starts in a word, so there are no blanks before the row
    have hnil : before = [] := by
      rcases before with _ | ⟨b, before⟩
      · rfl
      · have hb := hfirst b (by rw [hfront]; rfl)
        rw [hbefore b List.mem_cons_self] at hb
        cases hb
    rw [hnil, List.nil_append] at hrow hfront
    refine .inr ⟨ws, row, gap.reverse, hfront, h, by simpa using hgap, ⟨c, ?_, hc⟩, ?_⟩
    · rw [← hrow]
      simp
    · obtain ⟨w, ws, rfl⟩ := List.exists_cons_of_ne_nil h.ne_nil
      rw [readTypeReversed, hskip]
      simp only [hrow, h.words_eq, List.count_reverse]

/-! ### Reading fields -/

variable {s : List Char} {f : Field}

theorem not_isBlank_of_head?_trim : ∀ c ∈ (trim s).head?, isBlank c = false := by
  intro c hc
  obtain ⟨t, ht⟩ := List.head?_eq_some_iff.1 hc
  by_contra hblank
  rw [Bool.not_eq_false] at hblank
  have hcons : trim (c :: t) = trim t := by
    simpa using trim_append_of_blank (a := [c]) (s := t) (b := []) (by simpa using hblank) (by simp)
  rw [← ht, trim_trim, ht] at hcons
  -- trimming would make the rest longer
  obtain ⟨a, b, -, -, hsplit⟩ := exists_around_trim t
  rw [← hcons] at hsplit
  have hlen := congrArg List.length hsplit
  simp only [List.length_append, List.length_cons] at hlen
  omega

theorem readTrimmed_concat {front name : List Char} {c : Char} (hc : isWordChar c = false)
    (hname : ∀ d ∈ name, isWordChar d) (hwide : ¬ EndsWide (front ++ c :: name)) :
    readTrimmed (front ++ c :: name) =
      if isWord name then
        some ((readTypeReversed (front ++ [c]).reverse).map fun t => ⟨t, String.ofList name⟩)
      else some (.error .badName) := by
  have hnarrow : ¬ 0x80 ≤ c.toNat := fun h80 => hwide ⟨front, c, name, rfl, h80, hname⟩
  rw [readTrimmed_append_cons front hc hname, if_neg hnarrow, List.reverse_concat]

/-- A field ends in its name, and in its gap before that. -/
theorem Spells.readTrimmed_eq (h : Spells s f) (hwide : ¬ EndsWide s) :
    readTrimmed s = some (.ok f) := by
  obtain ⟨ws, row, gap, hs, hrow, hws, hne, hgap, hname, hbase, hdepth⟩ := h
  obtain ⟨g, c, rfl⟩ : ∃ g c, gap = g ++ [c] :=
    ⟨_, _, (List.dropLast_concat_getLast hne).symm⟩
  have hword : isWordChar c = false := isWordChar_of_isGapChar (hgap c (by simp))
  have hsplit : s = (row ++ g) ++ c :: f.name.toList := by simp [hs]
  have htype : readTypeReversed ((row ++ g) ++ [c]).reverse = .ok f.type := by
    have hlast : ∀ d ∈ row.reverse.head?, isGapChar d = false := by
      obtain ⟨t, d, w, rfl, hw, hd⟩ := hrow.exists_concat
      simpa using isGapChar_of_isWordChar (isWordChar_of_isWord (hws w hw) d hd)
    rw [List.append_assoc, List.reverse_append, readTypeReversed_ok_iff,
      skipMarkers_append (fun d hd => hgap d (List.mem_reverse.1 hd)) hlast]
    refine ⟨ws, by rw [List.reverse_reverse, hrow.words_eq], hrow.ne_nil, hws, ?_⟩
    rw [← hbase, String.ofList_toList, List.count_reverse, ← hdepth]
  have hid : isWord f.name.toList := hname
  rw [hsplit] at hwide ⊢
  rw [readTrimmed_concat hword (isWordChar_of_isWord hname) hwide, if_pos hid, htype,
    String.ofList_toList]
  rfl

/-- A text without blanks around it does not start with one. -/
theorem not_isBlank_of_head? {front name : List Char} {c : Char}
    (hs : trim (front ++ c :: name) = front ++ c :: name) :
    ∀ d ∈ (front ++ [c]).head?, isBlank d = false := by
  intro d hd
  refine not_isBlank_of_head?_trim (s := front ++ c :: name) d ?_
  rw [hs]
  cases front <;> exact hd

theorem spells_of_readTrimmed (hs : trim s = s) (hwide : ¬ EndsWide s)
    (h : readTrimmed s = some (.ok f)) : Spells s f := by
  rcases wordChars_or_split s with hword | ⟨front, c, name, rfl, hc, hname⟩
  · rw [readTrimmed_of_wordChars hword] at h
    cases h
  rw [readTrimmed_concat hc hname hwide] at h
  split_ifs at h with hid
  · obtain ⟨t, ht, rfl⟩ := map_eq_ok.1 (Option.some.inj h)
    rcases readTypeReversed_cases (not_isBlank_of_head? hs) with
      ⟨-, herror⟩ | ⟨ws, row, gap, hfront, hrow, hgap, -, hread⟩
    · rw [herror] at ht
      cases ht
    rw [hread] at ht
    split_ifs at ht with hws
    · cases ht
      rw [List.all_eq_true] at hws
      refine ⟨ws, row, gap, ?_, hrow, hws, ?_, hgap, ?_, String.toList_ofList, rfl⟩
      · rw [← hfront, String.toList_ofList]
        simp
      · rintro rfl
        -- the row would end in a character outside words
        obtain ⟨t, d, w, rfl, hw, hd⟩ := hrow.exists_concat
        rw [List.append_nil] at hfront
        obtain ⟨-, hcd⟩ := List.append_inj' hfront rfl
        cases hcd
        rw [isWordChar_of_isWord (hws w hw) c hd] at hc
        cases hc
      · rwa [isIdentifier, String.toList_ofList]
  · cases h

/-- **Reading and the grammar agree on fields.** -/
theorem readTrimmed_eq_ok_iff (hs : trim s = s) (hwide : ¬ EndsWide s) :
    readTrimmed s = some (.ok f) ↔ Spells s f :=
  ⟨spells_of_readTrimmed hs hwide, fun h => h.readTrimmed_eq hwide⟩

theorem misses_of_readTrimmed (hs : trim s = s) (hne : s ≠ []) (hwide : ¬ EndsWide s)
    {fault : FieldFault} (h : readTrimmed s = some (.error fault)) : Misses s fault := by
  have hspells : ∀ f, ¬ Spells s f := by
    intro f hf
    rw [hf.readTrimmed_eq hwide] at h
    cases h
  rcases wordChars_or_split s with hword | ⟨front, c, name, rfl, hc, hname⟩
  · rw [readTrimmed_of_wordChars hword] at h
    cases h
    exact .onlyIdentifier hne hword
  rw [readTrimmed_concat hc hname hwide] at h
  split_ifs at h with hid
  · rcases readTypeReversed_cases (not_isBlank_of_head? hs) with
      ⟨hgap, hread⟩ | ⟨ws, row, gap, hfront, -, -, ⟨d, hd, hdgap⟩, hread⟩
    · rw [hread] at h
      cases h
      rw [List.append_cons]
      exact .noType (by simp) hgap hid
    · rw [hread] at h
      split_ifs at h
      · cases h
      · cases h
        exact .badType hc hid ⟨d, by rw [hfront]; exact List.mem_append_left gap hd, hdgap⟩ hspells
  · cases h
    exact .badName hc hname hid

theorem Misses.readTrimmed_eq {fault : FieldFault} (h : Misses s fault) (hs : trim s = s)
    (hne : s ≠ []) (hwide : ¬ EndsWide s) : readTrimmed s = some (.error fault) := by
  cases h with
  | empty => exact (hne rfl).elim
  | onlyIdentifier _ hword => exact readTrimmed_of_wordChars hword
  | badName hc hname hid => rw [readTrimmed_concat hc hname hwide, if_neg hid]
  | @noType gap name hgapne hgap hid =>
    obtain ⟨g, c, rfl⟩ : ∃ g c, gap = g ++ [c] :=
      ⟨_, _, (List.dropLast_concat_getLast hgapne).symm⟩
    have hc : isWordChar c = false := isWordChar_of_isGapChar (hgap c (by simp))
    rw [← List.append_cons] at hs hwide ⊢
    rw [readTrimmed_concat hc (isWordChar_of_isWord hid) hwide, if_pos hid]
    rcases readTypeReversed_cases (not_isBlank_of_head? hs) with
      ⟨-, hread⟩ | ⟨ws, row, gap', hsplit, -, -, ⟨d, hd, hdgap⟩, -⟩
    · rw [hread]
      rfl
    · rw [hgap d (by rw [hsplit]; exact List.mem_append_left gap' hd)] at hdgap
      cases hdgap
  | @badType front name c hc hid hrest hspells =>
    obtain ⟨d, hd, hdgap⟩ := hrest
    have hread := readTrimmed_concat hc (isWordChar_of_isWord hid) hwide
    rw [if_pos hid] at hread
    rcases readTypeReversed_cases (not_isBlank_of_head? hs) with
      ⟨hgap, -⟩ | ⟨ws, -, gap, -, -, -, -, htype⟩
    · rw [hgap d hd] at hdgap
      cases hdgap
    · rw [htype] at hread
      split_ifs at hread
      · exact (hspells _ (spells_of_readTrimmed hs hwide hread)).elim
      · exact hread

/-- **Reading and the grammar agree on what is wrong.** -/
theorem readTrimmed_eq_error_iff (hs : trim s = s) (hne : s ≠ []) (hwide : ¬ EndsWide s)
    {fault : FieldFault} : readTrimmed s = some (.error fault) ↔ Misses s fault :=
  ⟨misses_of_readTrimmed hs hne hwide, fun h => h.readTrimmed_eq hs hne hwide⟩

/-! ### Fields with blanks around them -/

variable {loc : Location} {text : List Char}

/-- How an error shows a field: without the blanks around it, if there is anything else. -/
def shownField (text : List Char) : String :=
  String.ofList (if trim text = [] then text else trim text)

/-- **A field is read exactly if its text is that of the field**, unless reading it ends abnormally. -/
theorem readField_eq_ok_iff (hwide : ¬ EndsWide (trim text)) :
    readField loc (String.ofList text) = .ok f ↔ Spells (trim text) f := by
  rw [← readTrimmed_eq_ok_iff (trim_trim _) hwide]
  unfold readField
  rw [String.toList_ofList]
  cases trim text with
  | nil => simp [readTrimmed_of_wordChars]
  | cons c s =>
    simp only
    cases readTrimmed (c :: s) with
    | none => simp
    | some outcome => cases outcome <;> simp

theorem Misses.eq_empty {fault : FieldFault} (h : Misses s fault) (hs : s = []) :
    fault = .empty := by
  cases h <;> simp_all

/-- **A field is reported exactly if its text is none**, with what is wrong with it. -/
theorem readField_eq_error_iff (hwide : ¬ EndsWide (trim text)) {stop : Stop} :
    readField loc (String.ofList text) = .error stop ↔ ∃ fault, Misses (trim text) fault ∧
      stop = Error.malformedField loc (shownField text) fault.text := by
  unfold readField shownField
  rw [String.toList_ofList]
  have htrim := trim_trim text
  cases hs : trim text with
  | nil =>
    simp only [if_true, Except.error.injEq]
    constructor
    · rintro rfl
      exact ⟨.empty, .empty, rfl⟩
    · rintro ⟨fault, hmiss, rfl⟩
      rw [hmiss.eq_empty rfl]
  | cons c s =>
    rw [hs] at htrim hwide
    have hread : ∀ fault, readTrimmed (c :: s) = some (.error fault) ↔ Misses (c :: s) fault :=
      fun _ => readTrimmed_eq_error_iff htrim (List.cons_ne_nil c s) hwide
    simp only [← hread, if_neg (List.cons_ne_nil c s)]
    cases houtcome : readTrimmed (c :: s) with
    | none => exact (hwide (readTrimmed_eq_none_iff.1 houtcome)).elim
    | some outcome =>
      cases outcome with
      | ok f => simp
      | error fault => simp [eq_comm]

/-- A text with something wrong with it is that of no field. -/
theorem Misses.not_spells {fault : FieldFault} (h : Misses (trim text) fault)
    (hwide : ¬ EndsWide (trim text)) (f : Field) : ¬ Spells (trim text) f := by
  intro hf
  have hread : readField .unknown (String.ofList text) = .ok f := (readField_eq_ok_iff hwide).2 hf
  rw [(readField_eq_error_iff hwide).2 ⟨fault, h, rfl⟩] at hread
  cases hread

end NodeSchema

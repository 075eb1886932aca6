import NodeSchema.Field.Reader
import NodeSchema.Proofs.Except
import NodeSchema.Proofs.Text.Pieces

/-!
# Fields that are printed and read again

Reading looks for the last character of a field that cannot occur in a word: what follows it is the
name, and what precedes it is the type (`readTrimmed_append_cons`). A field that was read has an
identifier for a name and words for a type (`Field.WellFormed`). Printed, such a field is read as
itself, wherever it stands between blanks.

* `skipMarkers_append`: what stands between a type and a name is a gap of blanks and pointer markers.
* `wellFormed_of_readField`, `depth_le_of_readField`: what is read is well formed, and it has no more
  markers than its text.
* `readField_toString`: **a printed field is read as itself.**
* `toString_injective`: no two well-formed fields are printed alike.
-/

namespace NodeSchema

open Text

/-- The base of the type is a row of words with single spaces between them. -/
def TypeSpec.WellFormed (t : TypeSpec) : Prop :=
  ∃ ws : List (List Char), ws ≠ [] ∧ (∀ w ∈ ws, isWord w) ∧ t.base.toList = [' '].intercalate ws

/-- The type is a row of words, and the name is an identifier. -/
structure Field.WellFormed (f : Field) : Prop where
  type : f.type.WellFormed
  name : isIdentifier f.name

/-! ### The last character outside words -/

/-- A text is a row of word characters, or it has a last character that is none. -/
theorem wordChars_or_split (s : List Char) :
    (∀ c ∈ s, isWordChar c) ∨
      ∃ front c name, s = front ++ c :: name ∧ isWordChar c = false ∧ ∀ d ∈ name, isWordChar d := by
  induction s with
  | nil => exact .inl (by simp)
  | cons b s ih =>
    rcases ih with hs | ⟨front, c, name, rfl, hc, hname⟩
    · cases hb : isWordChar b with
      | false => exact .inr ⟨[], b, s, rfl, hb, hs⟩
      | true => exact .inl (List.forall_mem_cons.2 ⟨hb, hs⟩)
    · exact .inr ⟨b :: front, c, name, rfl, hc, hname⟩

theorem readTrimmed_of_wordChars {s : List Char} (h : ∀ c ∈ s, isWordChar c) :
    readTrimmed s = some (.error .onlyIdentifier) := by
  have hdrop : s.reverse.dropWhile isWordChar = [] := by simpa using h
  rw [readTrimmed, hdrop]

/-- **What follows the last character outside words is the name, and the rest is the type.** -/
theorem readTrimmed_append_cons {c : Char} {name : List Char} (front : List Char)
    (hc : isWordChar c = false) (hname : ∀ d ∈ name, isWordChar d) :
    readTrimmed (front ++ c :: name) =
      if 0x80 ≤ c.toNat then none
      else if isWord name then
        some ((readTypeReversed (c :: front.reverse)).map fun type => ⟨type, String.ofList name⟩)
      else some (.error .badName) := by
  have hrev : (front ++ c :: name).reverse = name.reverse ++ c :: front.reverse := by simp
  have htake : (front ++ c :: name).reverse.takeWhile isWordChar = name.reverse := by
    rw [hrev, List.takeWhile_append_of_pos (by simpa using hname),
      List.takeWhile_cons_of_neg (by simp [hc]), List.append_nil]
  have hdrop : (front ++ c :: name).reverse.dropWhile isWordChar = c :: front.reverse := by
    rw [hrev, List.dropWhile_append_of_pos (by simpa using hname),
      List.dropWhile_cons_of_neg (by simp [hc])]
  rw [readTrimmed, htake, hdrop, List.reverse_reverse]

/-! ### Gaps -/

/-- A blank or a pointer marker. -/
def isGapChar (c : Char) : Bool :=
  isBlank c || c == '*'

theorem isGapChar_of_isWordChar {c : Char} (h : isWordChar c) : isGapChar c = false := by
  rw [isGapChar, isBlank_of_isWordChar h, Bool.false_or, beq_eq_false_iff_ne]
  rintro rfl
  exact absurd h (by decide)

theorem isWordChar_of_isGapChar {c : Char} (h : isGapChar c) : isWordChar c = false := by
  rw [← Bool.not_eq_true]
  intro hword
  rw [isGapChar_of_isWordChar hword] at h
  cases h

/-- **Skipping markers skips a gap** and counts the markers in it. -/
theorem skipMarkers_append {gap rest : List Char} (hgap : ∀ c ∈ gap, isGapChar c)
    (hrest : ∀ c ∈ rest.head?, isGapChar c = false) :
    skipMarkers (gap ++ rest) = (gap.count '*', rest) := by
  induction gap with
  | nil =>
    cases rest with
    | nil => rfl
    | cons c rest =>
      have hc : isBlank c = false ∧ (c == '*') = false := by
        simpa [isGapChar] using hrest c rfl
      simp only [List.nil_append, skipMarkers, hc.1, Bool.false_eq_true, if_false,
        if_neg (beq_eq_false_iff_ne.1 hc.2)]
      rfl
  | cons c gap ih =>
    obtain ⟨hc, hgap⟩ := List.forall_mem_cons.1 hgap
    rw [List.cons_append, skipMarkers, ih hgap]
    by_cases hb : isBlank c
    · have hne : c ≠ '*' := by
        rintro rfl
        exact absurd hb (by decide)
      rw [if_pos hb, List.count_cons_of_ne hne]
    · obtain rfl : c = '*' := by simpa [isGapChar, hb] using hc
      rw [if_neg hb, if_pos rfl, List.count_cons_self]
      rfl

/-! ### What is read is well formed -/

/-- Reading a type gives the words before the pointer markers. -/
theorem readTypeReversed_ok_iff {front : List Char} {t : TypeSpec} :
    readTypeReversed front = .ok t ↔
      ∃ ws, words (skipMarkers front).2.reverse = ws ∧ ws ≠ [] ∧ (∀ w ∈ ws, isWord w) ∧
        t = ⟨String.ofList ([' '].intercalate ws), (skipMarkers front).1⟩ := by
  unfold readTypeReversed
  cases hws : words (skipMarkers front).2.reverse with
  | nil => simp [hws]
  | cons w ws =>
    simp only [hws]
    by_cases hall : (w :: ws).all isWord
    · rw [if_pos hall, Except.ok.injEq]
      constructor
      · rintro rfl
        exact ⟨w :: ws, rfl, by simp, List.all_eq_true.1 hall, rfl⟩
      · rintro ⟨_, rfl, -, -, rfl⟩
        rfl
    · rw [if_neg hall]
      constructor
      · rintro ⟨⟩
      · rintro ⟨_, rfl, -, h, -⟩
        exact (hall (List.all_eq_true.2 h)).elim

/-- A field that is read from a trimmed text is a type and a word, with a character outside words
between them. -/
theorem exists_of_readTrimmed {s : List Char} {f : Field} (h : readTrimmed s = some (.ok f)) :
    ∃ front c name t, s = front ++ c :: name ∧ isWord name ∧
      readTypeReversed (c :: front.reverse) = .ok t ∧ f = ⟨t, String.ofList name⟩ := by
  rcases wordChars_or_split s with hs | ⟨front, c, name, rfl, hc, hname⟩
  · rw [readTrimmed_of_wordChars hs] at h
    cases h
  · rw [readTrimmed_append_cons front hc hname] at h
    split_ifs at h with hwide hword
    · obtain ⟨t, ht, rfl⟩ := map_eq_ok.1 (Option.some.inj h)
      exact ⟨front, c, name, t, rfl, hword, ht, rfl⟩
    · cases h

theorem wellFormed_of_readTrimmed {s : List Char} {f : Field}
    (h : readTrimmed s = some (.ok f)) : f.WellFormed := by
  obtain ⟨front, c, name, t, -, hword, ht, rfl⟩ := exists_of_readTrimmed h
  obtain ⟨ws, -, hne, hws, rfl⟩ := readTypeReversed_ok_iff.1 ht
  refine ⟨⟨ws, hne, hws, String.toList_ofList⟩, ?_⟩
  rwa [isIdentifier, String.toList_ofList]

theorem readTrimmed_of_readField {loc : Location} {text : String} {f : Field}
    (h : readField loc text = .ok f) : readTrimmed (trim text.toList) = some (.ok f) := by
  unfold readField at h
  split at h
  · cases h
  · split at h
    · cases h
    · rename_i hread
      cases h
      exact hread
    · cases h

/-- **What is read is well formed.** -/
theorem wellFormed_of_readField {loc : Location} {text : String} {f : Field}
    (h : readField loc text = .ok f) : f.WellFormed :=
  wellFormed_of_readTrimmed (readTrimmed_of_readField h)

/-! ### The markers that are counted -/

/-- No marker is counted that is not there, whether a field is read in the end or not. -/
theorem skipMarkers_fst_le (s : List Char) : (skipMarkers s).1 ≤ s.count '*' := by
  induction s with
  | nil => exact le_rfl
  | cons c s ih =>
    rw [skipMarkers]
    split_ifs with hblank hstar
    · exact ih.trans List.count_le_count_cons
    · rw [hstar, List.count_cons_self]
      exact Nat.succ_le_succ ih
    · exact Nat.zero_le _

/-- **A field that is read has no more markers than its text.** So a text with no more of them than
`TypeSpec.maxDepth` gives a depth that one byte holds. -/
theorem depth_le_of_readField {loc : Location} {text : String} {f : Field}
    (h : readField loc text = .ok f) : f.type.depth ≤ text.toList.count '*' := by
  obtain ⟨front, c, name, t, hs, -, ht, rfl⟩ := exists_of_readTrimmed (readTrimmed_of_readField h)
  obtain ⟨ws, -, -, -, rfl⟩ := readTypeReversed_ok_iff.1 ht
  calc (skipMarkers (c :: front.reverse)).1
      ≤ (c :: front.reverse).count '*' := skipMarkers_fst_le _
    _ ≤ (front ++ c :: name).count '*' := by
      simp only [List.count_cons, List.count_append, List.count_reverse]
      omega
    _ = (trim text.toList).count '*' := by rw [hs]
    _ ≤ text.toList.count '*' := count_trim_le _ _

/-! ### What is printed is read -/

theorem toList_toString (f : Field) :
    (toString f).toList =
      (f.type.base.toList ++ List.replicate f.type.depth '*') ++ ' ' :: f.name.toList := by
  have h : toString f =
    f.type.base ++ String.ofList (List.replicate f.type.depth '*') ++ " " ++ f.name := rfl
  rw [h, String.toList_append, String.toList_append, String.toList_append, String.toList_ofList]
  simp

namespace TypeSpec.WellFormed

variable {t : TypeSpec}

theorem exists_cons (h : t.WellFormed) : ∃ c s, t.base.toList = c :: s ∧ isWordChar c := by
  obtain ⟨ws, hne, hws, hbase⟩ := h
  obtain ⟨w, ws, rfl⟩ := List.exists_cons_of_ne_nil hne
  obtain ⟨c, s, rfl, hc, -⟩ := exists_cons_of_isWord (hws w List.mem_cons_self)
  obtain ⟨rest, hrest⟩ : ∃ rest, [' '].intercalate ((c :: s) :: ws) = (c :: s) ++ rest := by
    cases ws with
    | nil => exact ⟨[], by simp⟩
    | cons w ws => exact ⟨_, by rw [List.intercalate_cons_cons, List.append_assoc]⟩
  exact ⟨c, s ++ rest, by rw [hbase, hrest, List.cons_append], isWordChar_of_isWordStart hc⟩

theorem exists_concat (h : t.WellFormed) : ∃ s c, t.base.toList = s ++ [c] ∧ isWordChar c := by
  obtain ⟨ws, hne, hws, hbase⟩ := h
  obtain ⟨ws, w, rfl⟩ : ∃ init w, ws = init ++ [w] :=
    ⟨_, _, (List.dropLast_concat_getLast hne).symm⟩
  obtain ⟨s, c, rfl, hc⟩ := exists_concat_of_isWord (hws w (by simp))
  refine ⟨ws.flatMap (· ++ [' ']) ++ s, c, ?_, hc⟩
  rw [hbase, intercalate_concat, List.append_assoc]

/-- A printed type, from its end, is read as itself. -/
theorem readTypeReversed_eq (h : t.WellFormed) :
    readTypeReversed (' ' :: (t.base.toList ++ List.replicate t.depth '*').reverse) = .ok t := by
  obtain ⟨s, c, hbase, hc⟩ := h.exists_concat
  obtain ⟨ws, hne, hws, hjoin⟩ := h
  have hskip : skipMarkers (' ' :: (t.base.toList ++ List.replicate t.depth '*').reverse) =
      (t.depth, t.base.toList.reverse) := by
    have hgap : ∀ d ∈ ' ' :: List.replicate t.depth '*', isGapChar d := by
      refine List.forall_mem_cons.2 ⟨rfl, fun d hd => ?_⟩
      rw [List.eq_of_mem_replicate hd]
      rfl
    have hlast : ∀ d ∈ t.base.toList.reverse.head?, isGapChar d = false := by
      rw [hbase]
      simpa using isGapChar_of_isWordChar hc
    rw [List.reverse_append, List.reverse_replicate, ← List.cons_append,
      skipMarkers_append hgap hlast, List.count_cons_of_ne (by decide), List.count_replicate_self]
  refine readTypeReversed_ok_iff.2 ⟨ws, ?_, hne, hws, ?_⟩
  · rw [hskip, List.reverse_reverse, hjoin, words_intercalate hws]
  · rw [hskip, ← hjoin, String.ofList_toList]

end TypeSpec.WellFormed

namespace Field.WellFormed

variable {f : Field}

/-- Words, blanks and pointer markers are all that is printed. -/
theorem not_mem_toString (h : f.WellFormed) {c : Char} (hword : isWordChar c = false)
    (hspace : c ≠ ' ') (hstar : c ≠ '*') : c ∉ (toString f).toList := by
  obtain ⟨⟨ws, -, hws, hbase⟩, hname⟩ := h
  have h1 : c ∉ f.type.base.toList := by
    rw [hbase]
    exact not_mem_intercalate (by simpa using hspace) fun w hw => not_mem_of_isWord (hws w hw) hword
  have h2 : c ∉ f.name.toList := not_mem_of_isWord hname hword
  rw [toList_toString]
  simp_all

theorem exists_concat (h : f.WellFormed) :
    ∃ s c, (toString f).toList = s ++ [c] ∧ isWordChar c := by
  obtain ⟨s, c, hs, hc⟩ := exists_concat_of_isWord h.name
  refine ⟨(f.type.base.toList ++ List.replicate f.type.depth '*') ++ ' ' :: s, c, ?_, hc⟩
  rw [toList_toString, hs]
  simp

theorem readTrimmed_toString (h : f.WellFormed) :
    readTrimmed (toString f).toList = some (.ok f) := by
  have hname : isWord f.name.toList := h.name
  rw [toList_toString, readTrimmed_append_cons _ (by decide) (isWordChar_of_isWord hname),
    if_neg (by decide), if_pos hname, h.type.readTypeReversed_eq, String.ofList_toList]
  rfl

theorem trim_toString (h : f.WellFormed) : trim (toString f).toList = (toString f).toList := by
  refine trim_eq_self ?_ ?_
  · obtain ⟨c, s, hbase, hc⟩ := h.type.exists_cons
    rw [toList_toString, hbase]
    simpa using isBlank_of_isWordChar hc
  · obtain ⟨s, c, hs, hc⟩ := h.exists_concat
    rw [hs]
    simpa using isBlank_of_isWordChar hc

/-- **A printed field is read as itself**, also between blanks. -/
theorem readField_around (h : f.WellFormed) {a b : List Char} (ha : ∀ c ∈ a, isBlank c)
    (hb : ∀ c ∈ b, isBlank c) (loc : Location) :
    readField loc (String.ofList (a ++ (toString f).toList ++ b)) = .ok f := by
  have htrim : trim (a ++ (toString f).toList ++ b) = (toString f).toList := by
    rw [trim_append_of_blank ha hb, h.trim_toString]
  have hne : (toString f).toList ≠ [] := by
    rw [toList_toString]
    simp
  unfold readField
  rw [String.toList_ofList, htrim]
  split
  · rename_i he
    exact (hne he).elim
  · rw [h.readTrimmed_toString]

theorem readField_toString (h : f.WellFormed) (loc : Location) :
    readField loc (toString f) = .ok f := by
  have hf := h.readField_around (a := []) (b := []) (by simp) (by simp) loc
  rwa [List.nil_append, List.append_nil, String.ofList_toList] at hf

/-- No two well-formed fields are printed alike. -/
theorem toString_injective {g : Field} (hf : f.WellFormed) (hg : g.WellFormed)
    (h : toString f = toString g) : f = g := by
  have hread := hf.readField_toString .unknown
  rw [h, hg.readField_toString] at hread
  cases hread
  rfl

/-- No two lists of well-formed fields are printed alike. -/
theorem eq_of_map_toString {fs gs : List Field} (hf : ∀ f ∈ fs, f.WellFormed)
    (hg : ∀ g ∈ gs, g.WellFormed) (h : fs.map toString = gs.map toString) : fs = gs := by
  induction fs generalizing gs with
  | nil => exact (List.map_eq_nil_iff.1 h.symm).symm
  | cons f fs ih =>
    obtain ⟨g, gs, rfl, hfg, h⟩ := List.map_eq_cons_iff.1 h.symm
    obtain ⟨hf, hfs⟩ := List.forall_mem_cons.1 hf
    obtain ⟨hg, hgs⟩ := List.forall_mem_cons.1 hg
    rw [hf.toString_injective hg hfg.symm, ih hfs hgs h.symm]

end Field.WellFormed

end NodeSchema

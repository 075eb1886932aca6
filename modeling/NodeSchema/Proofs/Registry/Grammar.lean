import NodeSchema.Proofs.Field.Grammar
import NodeSchema.Proofs.Registry.Entry
import NodeSchema.Proofs.Registry.Stops

/-!
# The grammar of entries

An entry is a name, a colon and a list of fields. Reading an entry stops at the first defect: a colon
or a name that is missing, a name that is no identifier, or the first field that is none. The grammar
says which texts are entries and which record each of them is (`SpellsEntry`), and of the other ones
what is reported (`Rejected`).

* `readFields_eq_ok_iff`, `readFields_eq_error_iff_misses`: lists of fields.
* `readEntry_outcome`: **what is read from an entry, and what is reported of a text that is none.**
-/

namespace NodeSchema

open Text

variable {loc : Location}

/-! ### Lists of fields -/

/-- The text of a list of fields: only blanks, or the texts of the fields with commas between them. -/
def SpellsFields (s : List Char) (fields : List Field) : Prop :=
  (∀ c ∈ s, isBlank c) ∧ fields = [] ∨
    List.Forall₂ (fun piece f => Spells (trim piece) f) (s.splitOn ',') fields

/-- Only blanks have no comma, and are not the text of a field. -/
theorem SpellsFields.eq_nil {s : List Char} {fields : List Field} (h : SpellsFields s fields)
    (hblank : ∀ c ∈ s, isBlank c) : fields = [] := by
  rcases h with ⟨-, hnil⟩ | h
  · exact hnil
  have hcomma : ',' ∉ s := fun hmem => absurd (hblank _ hmem) (by decide)
  rw [List.splitOn_eq_singleton hcomma] at h
  obtain ⟨f, fs, hf, -, -⟩ := List.forall₂_cons_left_iff.1 h
  rw [trim_eq_nil_iff.2 hblank] at hf
  exact (not_spells_nil f hf).elim

theorem readFields_eq_ok_iff {s : List Char} {fields : List Field}
    (hwide : ∀ piece ∈ s.splitOn ',', ¬ EndsWide (trim piece)) :
    readFields loc (String.ofList s) = .ok fields ↔ SpellsFields s fields := by
  unfold readFields
  rw [String.toList_ofList]
  split_ifs with hblank
  · rw [List.all_eq_true] at hblank
    constructor
    · rintro ⟨⟩
      exact .inl ⟨hblank, rfl⟩
    · intro h
      rw [h.eq_nil hblank]
  · rw [List.all_eq_true] at hblank
    have hleft : ¬ ((∀ c ∈ s, isBlank c) ∧ fields = []) := fun h => hblank h.1
    rw [SpellsFields, or_iff_right hleft, mapM_eq_ok]
    constructor
    · intro h
      exact forall₂_imp_of_mem h fun piece hpiece f => (readField_eq_ok_iff (hwide piece hpiece)).1
    · intro h
      exact forall₂_imp_of_mem h fun piece hpiece f => (readField_eq_ok_iff (hwide piece hpiece)).2

/-- Of the fields at commas, the first that is none, and what is wrong with it. -/
def MissesFields (s : List Char) (piece : List Char) (fault : FieldFault) : Prop :=
  (∃ c ∈ s, isBlank c = false) ∧ ∃ before after, s.splitOn ',' = before ++ piece :: after ∧
    (∀ p ∈ before, ∃ f, Spells (trim p) f) ∧ (∀ f, ¬ Spells (trim piece) f) ∧
    Misses (trim piece) fault

/-- A field that is read or reported does not end wide. -/
theorem not_endsWide_of_ne {piece : List Char}
    (h : readField loc (String.ofList piece) ≠ .error .aborted) : ¬ EndsWide (trim piece) := by
  rwa [ne_eq, readField_eq_aborted_iff, String.toList_ofList] at h

/-- Unless a field ends abnormally, well-formed fields are read, and the field after them does not
end wide. -/
theorem reads_before {s piece : List Char} {before after : List (List Char)}
    (hne : ∃ c ∈ s, isBlank c = false) (hs : s.splitOn ',' = before ++ piece :: after)
    (hbefore : ∀ p ∈ before, ∃ f, Spells (trim p) f) (habort : ¬ StopsAt loc s .aborted) :
    (∀ p ∈ before, ∃ f, readField loc (String.ofList p) = .ok f) ∧ ¬ EndsWide (trim piece) := by
  have hread : ∀ p ∈ before, ∃ f, readField loc (String.ofList p) = .ok f := by
    cases hmap : before.mapM fun p => readField loc (String.ofList p) with
    | ok fs =>
      intro p hp
      obtain ⟨f, -, hf⟩ := exists_of_forall₂ (mapM_eq_ok.1 hmap) hp
      exact ⟨f, hf⟩
    | error stop =>
      obtain ⟨before, p, rest, rfl, hread, hp⟩ := mapM_eq_error.1 hmap
      obtain ⟨f, hf⟩ := hbefore p (by simp)
      -- a well-formed field that is not read ends wide
      have hwide : EndsWide (trim p) := by
        by_contra hwide
        rw [(readField_eq_ok_iff hwide).2 hf] at hp
        cases hp
      refine (habort ⟨hne, before, p, rest ++ piece :: after, by simpa using hs, hread, ?_⟩).elim
      rwa [readField_eq_aborted_iff, String.toList_ofList]
  refine ⟨hread, fun hwide => habort ⟨hne, before, piece, after, hs, hread, ?_⟩⟩
  rwa [readField_eq_aborted_iff, String.toList_ofList]

/-- **A list of fields is reported for the first that is none**, unless one before it ends wide. -/
theorem readFields_eq_error_iff_misses {s : List Char} {e : Error} :
    readFields loc (String.ofList s) = .error (.error e) ↔
      (∃ piece fault, MissesFields s piece fault ∧
        e = .malformedField loc (shownField piece) fault.text) ∧
      readFields loc (String.ofList s) ≠ .error .aborted := by
  constructor
  · intro h
    refine ⟨?_, by simp [h]⟩
    rw [readFields_eq_error_iff, String.toList_ofList] at h
    obtain ⟨hne, before, piece, after, hs, hbefore, hpiece⟩ := h
    have hne' : readField loc (String.ofList piece) ≠ .error .aborted := by simp [hpiece]
    have hwide := not_endsWide_of_ne hne'
    obtain ⟨fault, hmiss, he⟩ := (readField_eq_error_iff hwide).1 hpiece
    refine ⟨piece, fault, ⟨hne, before, after, hs, fun p hp => ?_, hmiss.not_spells hwide, hmiss⟩,
      Stop.error.inj he⟩
    obtain ⟨f, hf⟩ := hbefore p hp
    have hne' : readField loc (String.ofList p) ≠ .error .aborted := by simp [hf]
    exact ⟨f, (readField_eq_ok_iff (not_endsWide_of_ne hne')).1 hf⟩
  · rintro ⟨⟨piece, fault, ⟨hne, before, after, hs, hbefore, -, hmiss⟩, rfl⟩, habort⟩
    rw [ne_eq, readFields_eq_error_iff, String.toList_ofList] at habort
    obtain ⟨hread, hwide⟩ := reads_before hne hs hbefore habort
    rw [readFields_eq_error_iff, String.toList_ofList]
    exact ⟨hne, before, piece, after, hs, hread,
      (readField_eq_error_iff hwide).2 ⟨fault, hmiss, rfl⟩⟩

/-! ### Entries -/

/-- **The text of an entry**: a name with blanks around it, the first colon, and a list of fields. -/
def SpellsEntry (s : List Char) (v : Record) : Prop :=
  ∃ front rest, s = front ++ ':' :: rest ∧ ':' ∉ front ∧ trim front = v.name.toList ∧
    isIdentifier v.name ∧ SpellsFields rest v.fields

/-- **What is reported of a text that is no entry.** -/
inductive Rejected (loc : Location) (s : List Char) : Error → Prop
  | missingSeparator : ':' ∉ s → Rejected loc s (.missingSeparator loc (String.ofList (trim s)))
  | emptyName {front rest : List Char} : s = front ++ ':' :: rest → ':' ∉ front →
      trim front = [] → Rejected loc s (.emptyName loc (String.ofList (trim s)))
  | invalidName {front rest : List Char} : s = front ++ ':' :: rest → ':' ∉ front →
      trim front ≠ [] → ¬ isWord (trim front) →
        Rejected loc s (.invalidName loc (String.ofList (trim front)))
  | malformedField {front rest piece : List Char} {fault : FieldFault} :
      s = front ++ ':' :: rest → ':' ∉ front → isWord (trim front) →
      MissesFields rest piece fault →
        Rejected loc s (.malformedField loc (shownField piece) fault.text)

/-- In every field of the text, the last character outside words takes one byte, and there are no more
than `TypeSpec.maxDepth` pointer markers. -/
def Readable (s : List Char) : Prop :=
  ∀ front rest, s = front ++ ':' :: rest → ':' ∉ front →
    ∀ piece ∈ rest.splitOn ',', ¬ EndsWide (trim piece) ∧ piece.count '*' ≤ TypeSpec.maxDepth

variable {entry : String} {front rest : List Char}

theorem readEntry_of_not_mem (h : ':' ∉ entry.toList) :
    readEntry loc entry = .error (Error.missingSeparator loc (trimmed entry)) := by
  rw [readEntry, cut_eq_none_iff.2 h]

/-- An entry with a colon is read from its name on. -/
theorem readEntry_of_eq (hs : entry.toList = front ++ ':' :: rest) (hfront : ':' ∉ front) :
    readEntry loc entry =
      if trim front = [] then .error (Error.emptyName loc (trimmed entry))
      else if isWord (trim front) then
        (readFields loc (String.ofList rest)).map fun fields =>
          ⟨String.ofList (trim front), fields, loc⟩
      else .error (Error.invalidName loc (String.ofList (trim front))) := by
  rw [readEntry, cut_eq_some_iff.2 ⟨hs, hfront⟩]
  simp only
  cases trim front with
  | nil => rfl
  | cons c w =>
    rw [if_neg (List.cons_ne_nil c w)]
    simp only [expectIdentifier, isIdentifier, String.toList_ofList]
    split_ifs
    · cases readFields loc (String.ofList rest) <;> rfl
    · rfl

theorem readEntry_eq_ok_iff (h : Readable entry.toList) {v : Record} :
    readEntry loc entry = .ok v ↔ SpellsEntry entry.toList v ∧ v.loc = loc := by
  constructor
  · intro hread
    cases hcut : cut ':' entry.toList with
    | none =>
      rw [readEntry_of_not_mem (cut_eq_none_iff.1 hcut)] at hread
      cases hread
    | some parts =>
      obtain ⟨front, rest⟩ := parts
      obtain ⟨hs, hfront⟩ := cut_eq_some_iff.1 hcut
      have hwide := fun piece hpiece => (h front rest hs hfront piece hpiece).1
      rw [readEntry_of_eq hs hfront] at hread
      split_ifs at hread with hnil hid
      obtain ⟨fields, hfields, rfl⟩ := map_eq_ok.1 hread
      refine ⟨⟨front, rest, hs, hfront, String.toList_ofList.symm, ?_,
        (readFields_eq_ok_iff hwide).1 hfields⟩, rfl⟩
      rwa [isIdentifier, String.toList_ofList]
  · rintro ⟨⟨front, rest, hs, hfront, hname, hid, hfields⟩, hloc⟩
    have hwide := fun piece hpiece => (h front rest hs hfront piece hpiece).1
    have hword : isWord (trim front) := hname ▸ hid
    have hne : trim front ≠ [] := by
      intro hnil
      rw [hnil] at hword
      cases hword
    rw [readEntry_of_eq hs hfront, if_neg hne, if_pos hword, (readFields_eq_ok_iff hwide).2 hfields,
      hname, String.ofList_toList, ← hloc]
    rfl

/-- **A text is reported for what is wrong with it**, unless reading it ends abnormally. -/
theorem readEntry_eq_error_iff_rejected {e : Error} :
    readEntry loc entry = .error (.error e) ↔
      Rejected loc entry.toList e ∧ readEntry loc entry ≠ .error .aborted := by
  constructor
  · intro hread
    refine ⟨?_, by simp [hread]⟩
    cases hcut : cut ':' entry.toList with
    | none =>
      have hcolon := cut_eq_none_iff.1 hcut
      rw [readEntry_of_not_mem hcolon] at hread
      cases hread
      exact .missingSeparator hcolon
    | some parts =>
      obtain ⟨front, rest⟩ := parts
      obtain ⟨hs, hfront⟩ := cut_eq_some_iff.1 hcut
      rw [readEntry_of_eq hs hfront] at hread
      split_ifs at hread with hnil hid
      · cases hread
        exact .emptyName hs hfront hnil
      · obtain ⟨⟨piece, fault, hmiss, rfl⟩, -⟩ :=
          readFields_eq_error_iff_misses.1 (map_eq_error.1 hread)
        exact .malformedField hs hfront hid hmiss
      · cases hread
        exact .invalidName hs hfront hnil hid
  · rintro ⟨hrejected, habort⟩
    cases hrejected with
    | missingSeparator hcolon => exact readEntry_of_not_mem hcolon
    | emptyName hs hfront hnil =>
      rw [readEntry_of_eq hs hfront, if_pos hnil]
      rfl
    | invalidName hs hfront hne hid => rw [readEntry_of_eq hs hfront, if_neg hne, if_neg hid]
    | @malformedField front rest piece fault hs hfront hid hmiss =>
      have hne : trim front ≠ [] := by
        intro hnil
        rw [hnil] at hid
        cases hid
      rw [readEntry_of_eq hs hfront, if_neg hne, if_pos hid] at habort ⊢
      rw [readFields_eq_error_iff_misses.2
        ⟨⟨piece, fault, hmiss, rfl⟩, fun h => habort (map_eq_error.2 h)⟩]
      rfl

/-- Reading ends abnormally only at a field that ends wide. -/
theorem readEntry_ne_aborted (h : Readable entry.toList) : readEntry loc entry ≠ .error .aborted := by
  intro habort
  obtain ⟨front, rest, hcut, -, -, before, piece, after, hs, -, hpiece⟩ :=
    (readEntry_eq_error_iff (e := ⟨entry, loc⟩) Stop.ofField_aborted).1 habort
  obtain ⟨hentry, hfront⟩ := cut_eq_some_iff.1 hcut
  rw [readField_eq_aborted_iff, String.toList_ofList] at hpiece
  exact (h front rest hentry hfront piece (by simp [hs])).1 hpiece

theorem readEntry_eq_error_iff_of_readable (h : Readable entry.toList) {stop : Stop} :
    readEntry loc entry = .error stop ↔ ∃ e, Rejected loc entry.toList e ∧ stop = .error e := by
  cases stop with
  | aborted => simp [readEntry_ne_aborted h]
  | error e => simp [readEntry_eq_error_iff_rejected, readEntry_ne_aborted h]

/-! ### The outcome -/

theorem Readable.markersFit {s : List Char} (h : Readable s) : MarkersFit s :=
  fun front rest hs hfront piece hpiece => (h front rest hs hfront piece hpiece).2

/-- **What reading an entry gives**, if the last character outside words takes one byte in every field,
and no field has more than `TypeSpec.maxDepth` pointer markers. A record is read exactly if the text is
that of this record, and no type in it is deeper than that. Any other text is reported: for a colon
that is missing, for a name that is empty or no identifier, or for the first field that is none.
So reading never ends abnormally. -/
theorem readEntry_outcome (loc : Location) (entry : String) (h : Readable entry.toList) :
    (∀ v, readEntry loc entry = .ok v ↔ SpellsEntry entry.toList v ∧ v.loc = loc) ∧
    (∀ v, readEntry loc entry = .ok v → ∀ f ∈ v.fields, f.type.depth ≤ TypeSpec.maxDepth) ∧
    (∀ stop, readEntry loc entry = .error stop ↔
      ∃ e, Rejected loc entry.toList e ∧ stop = .error e) :=
  ⟨fun _ => readEntry_eq_ok_iff h,
    fun _ hv => depth_le_of_readEntry h.markersFit hv,
    fun _ => readEntry_eq_error_iff_of_readable h⟩

/-- An entry with blanks and pointer markers in unusual places. -/
def spacedEntry : List Char :=
  [' ', 'C', ' ', ':', '\t', 'E', ' ', '*', ' ', '*', 'f', ',', 's', '\u2003', 'A', '*', 'a', ' ']

theorem splitOn_spacedEntry : (spacedEntry.drop 4).splitOn ',' =
    [['\t', 'E', ' ', '*', ' ', '*', 'f'], ['s', '\u2003', 'A', '*', 'a', ' ']] := by
  decide

theorem readable_spacedEntry : Readable spacedEntry := by
  intro front rest hs hfront piece hpiece
  have hsplit : spacedEntry = spacedEntry.take 3 ++ ':' :: spacedEntry.drop 4 := by decide
  obtain ⟨-, rfl⟩ := append_cons_inj hfront (by decide) (hs.symm.trans hsplit)
  rw [splitOn_spacedEntry] at hpiece
  rw [← readTrimmed_eq_none_iff]
  rcases List.mem_cons.1 hpiece with rfl | hpiece
  · decide
  · rw [List.mem_singleton.1 hpiece]
    decide

/-- The words of a type are put together again, and all markers between them and the name count. -/
theorem readEntry_outcome_spaced :
    Readable (String.ofList spacedEntry).toList ∧
      readEntry .unknown (String.ofList spacedEntry) =
        .ok ⟨"C", [⟨⟨"E", 2⟩, "f"⟩, ⟨⟨"s A", 1⟩, "a"⟩], .unknown⟩ := by
  have h : Readable (String.ofList spacedEntry).toList := by
    rw [String.toList_ofList]
    exact readable_spacedEntry
  have hfields : SpellsFields (spacedEntry.drop 4) [⟨⟨"E", 2⟩, "f"⟩, ⟨⟨"s A", 1⟩, "a"⟩] := by
    rw [SpellsFields, splitOn_spacedEntry]
    refine .inr (.cons ?_ (.cons ?_ .nil))
    · have hrow : Row [['E']] ['E'] := .word (by simp) (List.forall_mem_singleton.2 rfl)
      exact ⟨_, _, [' ', '*', ' ', '*'], by decide +kernel, hrow, List.all_eq_true.1 rfl, by simp,
        List.all_eq_true.1 rfl, by decide +kernel, by decide +kernel, rfl⟩
    · have hrow : Row [['s'], ['A']] (['s'] ++ ['\u2003'] ++ ['A']) :=
        .cons (by simp) (List.forall_mem_singleton.2 rfl) (by simp)
          (List.forall_mem_singleton.2 rfl) (.word (by simp) (List.forall_mem_singleton.2 rfl))
      exact ⟨_, _, ['*'], by decide +kernel, hrow, List.all_eq_true.1 rfl, by simp,
        List.all_eq_true.1 rfl, by decide +kernel, by decide +kernel, rfl⟩
  refine ⟨h, ((readEntry_outcome .unknown _ h).1 _).2 ⟨?_, rfl⟩⟩
  rw [String.toList_ofList]
  exact ⟨spacedEntry.take 3, spacedEntry.drop 4, by decide, by decide, by decide +kernel,
    by decide +kernel, hfields⟩

end NodeSchema

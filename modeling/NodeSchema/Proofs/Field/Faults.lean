import NodeSchema.Proofs.Except
import NodeSchema.Proofs.Field.Printing

/-!
# Fields that cannot be read

Reading a field looks for its last character outside words, and goes on from the byte after the
first byte of that character. In a character of one byte that is where the next character starts. In
a longer one it is not, and reading ends abnormally.

* `readField_eq_aborted_iff`: **reading a field ends abnormally exactly if its last character
  outside words takes more than one byte.** All other fields are read, or are reported as malformed
  (`readField_cases`).
* `readFields_eq_error_iff`: a list of fields stops as the first of its fields that is not read.
-/

namespace NodeSchema

open Text

/-- The last character outside words takes more than one byte. -/
def EndsWide (s : List Char) : Prop :=
  ∃ front c name, s = front ++ c :: name ∧ 0x80 ≤ c.toNat ∧ ∀ d ∈ name, isWordChar d

/-- Words are made of characters of one byte. -/
theorem isWordChar_of_wide {c : Char} (h : 0x80 ≤ c.toNat) : isWordChar c = false := by
  rw [← Bool.not_eq_true, isWordChar_iff]
  omega

theorem readTrimmed_eq_none_iff {s : List Char} : readTrimmed s = none ↔ EndsWide s := by
  constructor
  · intro h
    rcases wordChars_or_split s with hs | ⟨front, c, name, rfl, hc, hname⟩
    · rw [readTrimmed_of_wordChars hs] at h
      cases h
    · rw [readTrimmed_append_cons front hc hname] at h
      split_ifs at h with hwide
      exact ⟨front, c, name, rfl, hwide, hname⟩
  · rintro ⟨front, c, name, rfl, hwide, hname⟩
    rw [readTrimmed_append_cons front (isWordChar_of_wide hwide) hname, if_pos hwide]

/-- **Reading a field ends abnormally exactly if its last character outside words takes more than
one byte.** -/
theorem readField_eq_aborted_iff {loc : Location} {text : String} :
    readField loc text = .error .aborted ↔ EndsWide (trim text.toList) := by
  rw [← readTrimmed_eq_none_iff]
  unfold readField
  cases trim text.toList with
  | nil => simp [readTrimmed_of_wordChars]
  | cons c s =>
    simp only
    cases readTrimmed (c :: s) with
    | none => simp
    | some outcome => cases outcome <;> simp

/-- A field is read and well formed, is reported as malformed, or reading it ends abnormally. -/
theorem readField_cases (loc : Location) (text : String) :
    (∃ f, readField loc text = .ok f ∧ f.WellFormed) ∨
      (∃ field fault, readField loc text =
        .error (Error.malformedField loc field (FieldFault.text fault))) ∨
      readField loc text = .error .aborted := by
  unfold readField
  cases htrim : trim text.toList with
  | nil => exact .inr (.inl ⟨_, _, rfl⟩)
  | cons c s =>
    simp only
    cases hread : readTrimmed (c :: s) with
    | none => exact .inr (.inr rfl)
    | some outcome =>
      cases outcome with
      | error fault => exact .inr (.inl ⟨_, _, rfl⟩)
      | ok f => exact .inl ⟨f, rfl, wellFormed_of_readTrimmed hread⟩

/-- Of fields at commas, the first that is not read stops for this reason. -/
def StopsAt (loc : Location) (fields : List Char) (stop : Stop) : Prop :=
  (∃ c ∈ fields, isBlank c = false) ∧
    ∃ before field after, fields.splitOn ',' = before ++ field :: after ∧
      (∀ p ∈ before, ∃ f, readField loc (String.ofList p) = .ok f) ∧
      readField loc (String.ofList field) = .error stop

/-- **A list of fields stops as the first of its fields that is not read.** -/
theorem readFields_eq_error_iff {loc : Location} {text : String} {stop : Stop} :
    readFields loc text = .error stop ↔ StopsAt loc text.toList stop := by
  unfold readFields StopsAt
  split_ifs with hblank
  · rw [List.all_eq_true] at hblank
    constructor
    · rintro ⟨⟩
    · rintro ⟨⟨c, hc, hb⟩, -⟩
      rw [hblank c hc] at hb
      cases hb
  · have hex : ∃ c ∈ text.toList, isBlank c = false := by simpa using hblank
    rw [mapM_eq_error, and_iff_right hex]

end NodeSchema

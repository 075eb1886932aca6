import NodeSchema.Proofs.Field.Faults
import NodeSchema.Proofs.Registry.Passes

/-!
# What computations stop with

Reading and checking a schema stops with an error of the schema, or it ends abnormally. Only a field
that is not read ends abnormally or is reported as malformed (`Stop.OfField`).

* `FailsIn`: what a computation fails with.
* `readEntry_eq_error_iff`: where reading an entry stops at a field.
-/

namespace NodeSchema

open Text

/-! ### Failures -/

/-- An error of the schema or an abnormal end. -/
def Stop.OfSchema : Stop → Prop
  | error e => e.isSchemaError
  | aborted => True

/-- An error that has a place in the schema is one of the schema. -/
theorem Error.isSchemaError_of_location? {e : Error} {loc : Location}
    (h : e.location? = some loc) : e.isSchemaError := by
  cases e <;> first | rfl | cases h

/-- What a field that is not read stops with. -/
def Stop.OfField : Stop → Prop
  | aborted => True
  | error (.malformedField _ _ _) => True
  | error _ => False

/-- An error of the schema that is not about a field. -/
def Stop.Structural (stop : Stop) : Prop :=
  stop.OfSchema ∧ ¬ stop.OfField

theorem Stop.ofField_aborted : Stop.aborted.OfField :=
  trivial

theorem Stop.OfField.ne_error {stop : Stop} (hstop : stop.OfField) {e : Error}
    (h : ¬ (Stop.error e).OfField) : Stop.error e ≠ stop := by
  rintro rfl
  exact h hstop

/-- If the computation fails, then with such a reason. -/
def FailsIn {α : Type} (P : Stop → Prop) (x : Except Stop α) : Prop :=
  ∀ stop, x = .error stop → P stop

section

variable {α β : Type} {P : Stop → Prop} {stop : Stop} {x : Except Stop α} {f : α → Except Stop β}

theorem failsIn_ok (a : α) : FailsIn P (.ok a : Except Stop α) := by
  rintro stop ⟨⟩

theorem failsIn_error (h : P stop) : FailsIn P (.error stop : Except Stop α) := by
  rintro _ ⟨⟩
  exact h

/-- A sequence fails with such a reason if both of its parts do. -/
theorem FailsIn.bind (hx : FailsIn P x) (hf : ∀ a, FailsIn P (f a)) : FailsIn P (x >>= f) := by
  intro stop h
  rcases bind_eq_error.1 h with h | ⟨a, -, h⟩
  · exact hx stop h
  · exact hf a stop h

theorem FailsIn.ofSchema (hx : FailsIn Stop.Structural x) : FailsIn Stop.OfSchema x :=
  fun stop h => (hx stop h).1

theorem FailsIn.ne_error (hx : FailsIn Stop.Structural x) (hstop : stop.OfField) :
    x ≠ .error stop :=
  fun h => (hx stop h).2 hstop

/-- If the first part is not about fields, a stop at a field is one of the second part. -/
theorem FailsIn.bind_eq_error_iff (hx : FailsIn Stop.Structural x) (hstop : stop.OfField) :
    (x >>= f) = .error stop ↔ ∃ a, x = .ok a ∧ f a = .error stop := by
  rw [bind_eq_error, or_iff_right (hx.ne_error hstop)]

end

/-- A name that is no identifier is not reported as a field. -/
theorem failsIn_expectIdentifier (loc : Location) (name : String) :
    FailsIn Stop.Structural (expectIdentifier loc name) := by
  unfold expectIdentifier
  split_ifs
  · exact failsIn_ok ()
  · exact failsIn_error ⟨rfl, id⟩

/-! ### Entries -/

/-- The entry has a name, and a field of it stops for this reason. -/
def EntrySource.Stops (e : EntrySource) (stop : Stop) : Prop :=
  ∃ front rest, cut ':' e.text.toList = some (front, rest) ∧ isWord (trim front) ∧
    StopsAt e.loc rest stop

variable {stop : Stop}

/-- **Reading an entry stops at a field.** -/
theorem readEntry_eq_error_iff {e : EntrySource} (hstop : stop.OfField) :
    readEntry e.loc e.text = .error stop ↔ e.Stops stop := by
  unfold readEntry EntrySource.Stops
  cases cut ':' e.text.toList with
  | none => simp [hstop.ne_error (e := .missingSeparator _ _) id]
  | some parts =>
    obtain ⟨front, rest⟩ := parts
    simp only [Option.some.injEq, Prod.mk.injEq, exists_and_left, and_assoc, exists_eq_left']
    cases htrim : trim front with
    | nil => simp [isWord, hstop.ne_error (e := .emptyName _ _) id]
    | cons c s =>
      simp only
      rw [(failsIn_expectIdentifier e.loc _).bind_eq_error_iff hstop]
      simp only [expectIdentifier_ok_iff, isIdentifier, String.toList_ofList, exists_const]
      rw [bind_pure_eq_error, readFields_eq_error_iff, String.toList_ofList]

end NodeSchema

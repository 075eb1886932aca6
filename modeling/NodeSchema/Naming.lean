import NodeSchema.Text.Upper

/-!
# Names of C

Which texts are identifiers of C, and how the names of the generated declarations follow from the
names in a schema.

* `isIdentifier_iff`: an identifier is a letter or underscore followed by letters, digits and
  underscores, all of them below 128.
-/

namespace NodeSchema

/-- A letter, digit or underscore. -/
def isWordChar (c : Char) : Bool :=
  c.isAlphanum || c == '_'

/-- A letter or underscore. -/
def isWordStart (c : Char) : Bool :=
  c.isAlpha || c == '_'

/-- Whether a text is an identifier of C. -/
def isWord : List Char → Bool
  | [] => false
  | c :: s => isWordStart c && s.all isWordChar

/-- Whether a name is an identifier of C. -/
def isIdentifier (name : String) : Bool :=
  isWord name.toList

/-- The name with its first character in upper case (`typeNode` to `TypeNode`). -/
def titleCase (name : String) : String :=
  match name.toList with
  | [] => ""
  | c :: s => String.ofList (Text.upper c ++ s)

/-- The discriminator of a variant (`GetItem` to `NODE_GETITEM`). Letters below 128 are raised. -/
def discriminatorName (variant : String) : String :=
  "NODE_" ++ String.ofList (variant.toList.map Char.toUpper)

/-- The container type of a family (`expr` to `ExprArray`). -/
def containerType (group : String) : String :=
  titleCase group ++ "Array"

/-- The buffer member of a container (`expr` to `exprs`). -/
def containerMember (group : String) : String :=
  group ++ "s"

theorem isIdentifier_iff {name : String} :
    isIdentifier name ↔
      ∃ c s, name.toList = c :: s ∧ isWordStart c ∧ ∀ d ∈ s, isWordChar d := by
  unfold isIdentifier
  cases name.toList with
  | nil => simp [isWord]
  | cons c s =>
    simp only [isWord, Bool.and_eq_true, List.all_eq_true, List.cons.injEq]
    constructor
    · intro h
      exact ⟨c, s, ⟨rfl, rfl⟩, h⟩
    · rintro ⟨_, _, ⟨rfl, rfl⟩, h⟩
      exact h

theorem isWordChar_of_isWordStart {c : Char} (h : isWordStart c) : isWordChar c := by
  simp only [isWordStart, isWordChar, Char.isAlphanum, Bool.or_eq_true] at *
  rcases h with h | h
  · exact .inl (.inl h)
  · exact .inr h

end NodeSchema

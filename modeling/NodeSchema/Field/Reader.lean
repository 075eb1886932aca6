import NodeSchema.Error
import NodeSchema.Field.Basic
import NodeSchema.Naming
import NodeSchema.Text.Blank

/-!
# Reading fields

A field is a type followed by an identifier, such as `Token name`, `Expr *left` or
`struct Variable* superclass`. The identifier is what follows the last character that cannot occur
in one, the pointer markers may stand anywhere between the type and the identifier, and the words of
the type are separated by blanks.

Markers are counted without a bound. A count in one byte is the same for every field with at most
`TypeSpec.maxDepth` markers. With one more it overflows, and what becomes of that is not said here.

* `readField` reads one field, `readFields` a list separated by commas.
* `FieldFault` holds the reasons for which a field is malformed.
-/

namespace NodeSchema

open Text

/-- Why a text is no field. -/
inductive FieldFault where
  /-- There is nothing but blanks. -/
  | empty
  /-- There is only an identifier. -/
  | onlyIdentifier
  /-- What follows the type is no identifier. -/
  | badName
  /-- There is no type before the identifier. -/
  | noType
  /-- The type has a word that is no identifier. -/
  | badType
deriving DecidableEq, Repr

/-- The wording of a fault. -/
def FieldFault.text : FieldFault → String
  | empty => "empty field entry"
  | onlyIdentifier => "expected a type followed by an identifier"
  | badName => "field name is not a C identifier"
  | noType => "missing field type"
  | badType => "unsupported type syntax"

/-- Skips blanks and pointer markers and counts the markers. The count has no bound. -/
def skipMarkers : List Char → Nat × List Char
  | [] => (0, [])
  | c :: s =>
    if isBlank c then skipMarkers s
    else if c = '*' then Prod.map (· + 1) id (skipMarkers s)
    else (0, c :: s)

/-- Reads the type that precedes the name of a field, given in reverse. -/
def readTypeReversed (front : List Char) : Except FieldFault TypeSpec :=
  let (depth, rest) := skipMarkers front
  match words rest.reverse with
  | [] => .error .noType
  | ws =>
    if ws.all isWord then .ok ⟨String.ofList ([' '].intercalate ws), depth⟩
    else .error .badType

/-- Reads a field from a text without blanks around it. The text before the name has to end in a
character of one byte: otherwise reading aborts. -/
def readTrimmed (entry : List Char) : Option (Except FieldFault Field) :=
  let name := (entry.reverse.takeWhile isWordChar).reverse
  match entry.reverse.dropWhile isWordChar with
  | [] => some (.error .onlyIdentifier)
  | c :: front =>
    if 0x80 ≤ c.toNat then none
    else if isWord name then
      some ((readTypeReversed (c :: front)).map fun type => ⟨type, String.ofList name⟩)
    else some (.error .badName)

/-- Reads one field. -/
def readField (loc : Location) (text : String) : Except Stop Field :=
  match trim text.toList with
  | [] => .error (Error.malformedField loc text FieldFault.empty.text)
  | entry =>
    match readTrimmed entry with
    | none => .error .aborted
    | some (.ok f) => .ok f
    | some (.error fault) => .error (Error.malformedField loc (String.ofList entry) fault.text)

/-- Reads fields separated by commas. A blank text has none. -/
def readFields (loc : Location) (text : String) : Except Stop (List Field) :=
  if text.toList.all isBlank then .ok []
  else (text.toList.splitOn ',').mapM fun piece => readField loc (String.ofList piece)

end NodeSchema

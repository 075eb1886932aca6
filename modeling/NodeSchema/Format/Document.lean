import NodeSchema.Json.Reader
import NodeSchema.Registry.Build

/-!
# The JSON format of schemas

A document holds the enums and the families of a schema. The enums may be missing.

* `readDocument` reads the text of a document, `Document.toSource` gives its definitions.
-/

namespace NodeSchema

/-- A schema as a JSON document holds it: enums with their members, and groups with their entries. -/
structure Document where
  enums : List (String × List String)
  families : List (String × List String)
deriving DecidableEq, Repr, Inhabited

namespace Document

open Json

/-- The shape of an enum. -/
def enumShape : Pair String :=
  ⟨"struct EnumSource", "name", "members", none⟩

/-- The shape of a family. -/
def familyShape : Pair String :=
  ⟨"struct FamilyFile", "group", "entries", none⟩

/-- The shape of a document. -/
def shape : Pair (List (String × List String)) :=
  ⟨"struct SchemaFile", "enums", "families", some []⟩

/-- Reads a document. -/
def reader : Reader (List (String × List String) × List (String × List String)) :=
  shape.read (list (enumShape.read text (list text))) (list (familyShape.read text (list text)))

/-- The enum at position `index` of the document. -/
def enumSource (source : String) (e : String × List String) (index : Nat) : EnumSource :=
  let loc : Location := ⟨source ++ "[enums]", index + 1, 1⟩
  ⟨Text.trimmed e.1, e.2.map Text.trimmed, loc⟩

/-- A family of the document. Its entries are located in a file that is named for the family. -/
def familySource (source : String) (f : String × List String) : FamilySource :=
  let file := source ++ "[" ++ f.1 ++ "]"
  ⟨Text.trimmed f.1, f.2.zipIdx.map fun (e, i) => ⟨e, ⟨file, i + 1, 1⟩⟩, ⟨file, 1, 1⟩⟩

/-- The definitions of the document. -/
def toSource (d : Document) (source : String) : Source where
  enums := d.enums.zipIdx.map fun (e, i) => enumSource source e i
  families := d.families.map (familySource source)

end Document

/-- Reads the text of a document. -/
def readDocument (text : String) : Except Json.Fault Document := do
  let (enums, families) ← Json.document Document.reader text
  return ⟨enums, families⟩

/-- The registry of a schema in the JSON format. -/
def readJson (source text : String) : Except Stop Registry :=
  match readDocument text with
  | .ok d => (d.toSource source).build
  | .error (.shape message) => .error (Error.schemaFormat source (some message))
  | .error .syntaxError => .error (Error.schemaFormat source none)

end NodeSchema

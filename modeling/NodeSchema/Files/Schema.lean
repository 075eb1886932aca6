import NodeSchema.Files.Storage
import NodeSchema.Format.Document
import NodeSchema.Format.Lines

/-!
# Schema files

The extension of a file tells its format: a JSON document, or lines.
-/

namespace NodeSchema

/-- Whether a path names a JSON document. The case of the extension does not count. -/
def Path.isJson (p : String) : Bool :=
  (Path.extension? p).map (fun e => e.map Char.toLower) = some "json"

/-- Reads a schema in the format that its path tells. -/
def readSchema (p text : String) : Except Stop Registry :=
  if Path.isJson p then readJson p text else readLines p text

/-- Reads a schema file. -/
def loadSchema {m : Type → Type} [Monad m] [Storage m] (p : String) :
    m (Except Stop Registry) := do
  match ← Storage.readText p with
  | .ok text => return readSchema p text
  | .error f => return .error (Error.io (p ++ ": " ++ f.message))

end NodeSchema

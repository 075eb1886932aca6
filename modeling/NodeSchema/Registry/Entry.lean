import NodeSchema.Field.Reader
import NodeSchema.Registry.Basic

/-!
# Entries of a family

An entry is a name, a colon and a list of fields: `Binary : Expr *left, Token operator`.
-/

namespace NodeSchema

open Text

/-- Fails unless a name is an identifier of C. -/
def expectIdentifier (loc : Location) (name : String) : Except Stop Unit :=
  if isIdentifier name then .ok () else .error (Error.invalidName loc name)

/-- Reads the record of an entry. -/
def readEntry (loc : Location) (entry : String) : Except Stop Record :=
  match cut ':' entry.toList with
  | none => .error (Error.missingSeparator loc (trimmed entry))
  | some (front, rest) =>
    match trim front with
    | [] => .error (Error.emptyName loc (trimmed entry))
    | name => do
      expectIdentifier loc (String.ofList name)
      let fields ← readFields loc (String.ofList rest)
      return ⟨String.ofList name, fields, loc⟩

end NodeSchema

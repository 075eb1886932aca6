import NodeSchema.Location
import NodeSchema.Text.Blank

/-!
# Schema sources

The definitions of a schema as they are collected, before anything is checked: enums, and families
with the texts of their entries, each with its location.
-/

namespace NodeSchema

/-- An enum as it is declared. -/
structure EnumSource where
  name : String
  members : List String
  loc : Location
deriving DecidableEq, Repr, Inhabited

/-- The text of an entry. -/
structure EntrySource where
  text : String
  loc : Location
deriving DecidableEq, Repr, Inhabited

/-- A family as it is declared. Its first entry is its base record. -/
structure FamilySource where
  group : String
  entries : List EntrySource
  loc : Location
deriving DecidableEq, Repr, Inhabited

/-- The definitions of a schema in their order. -/
structure Source where
  enums : List EnumSource
  families : List FamilySource
deriving DecidableEq, Repr, Inhabited

namespace Source

/-- The source without definitions. -/
def empty : Source :=
  ⟨[], []⟩

instance : EmptyCollection Source :=
  ⟨empty⟩

/-- Adds an enum. Blanks around its name and its members do not count. -/
def addEnum (s : Source) (name : String) (members : List String) (loc : Location) : Source :=
  { s with enums := s.enums ++ [⟨Text.trimmed name, members.map Text.trimmed, loc⟩] }

/-- Adds a family. Blanks around its group do not count. -/
def addFamily (s : Source) (group : String) (entries : List EntrySource) (loc : Location) :
    Source :=
  { s with families := s.families ++ [⟨Text.trimmed group, entries, loc⟩] }

/-- Adds a family from a built-in table. -/
def addTable (s : Source) (group : String) (entries : List String) : Source :=
  s.addFamily group (entries.zipIdx.map fun (e, i) => ⟨e, .builtin group i⟩) (.builtin group 0)

/-- The source of a list of built-in tables. -/
def ofTables (tables : List (String × List String)) : Source :=
  tables.foldl (fun s (group, entries) => s.addTable group entries) empty

end Source

end NodeSchema

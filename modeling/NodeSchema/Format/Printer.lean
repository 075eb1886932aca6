import NodeSchema.Registry.Basic

/-!
# Printing a registry in the line format

One line per enum, then for each family a header, its base record and its variants.
-/

namespace NodeSchema

/-- The entry of a record. -/
def Record.toEntry (r : Record) : String :=
  r.name ++ " : " ++ ", ".intercalate (r.fields.map toString)

/-- The line that declares an enum. -/
def PreludeEnum.toLine (e : PreludeEnum) : String :=
  "enum " ++ e.name ++ " : " ++ ", ".intercalate e.members

/-- The lines of a family. -/
def Family.toLines (f : Family) : List String :=
  ("[" ++ f.group ++ "]") :: f.base.toEntry :: f.variants.map Record.toEntry

/-- The lines of a registry. -/
def Registry.toLines (r : Registry) : List String :=
  r.enums.map PreludeEnum.toLine ++ r.families.flatMap Family.toLines

/-- A registry in the line format. -/
def Registry.toText (r : Registry) : String :=
  String.join (r.toLines.map (· ++ "\n"))

end NodeSchema

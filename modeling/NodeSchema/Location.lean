/-!
# Locations in a schema

A location names a schema source and a place in it. Entries of a built-in table are addressed like
lines of a file.
-/

namespace NodeSchema

/-- A place in a schema source. Lines and columns count from one. -/
structure Location where
  file : String
  line : Nat
  column : Nat
deriving DecidableEq, Repr, Inhabited

namespace Location

/-- The location of something that comes from no source. -/
def unknown : Location :=
  ⟨"<unknown>", 0, 0⟩

/-- The location of entry `index`, counted from zero, of the built-in table `group`. The index is
kept in 32 bits. -/
def builtin (group : String) (index : Nat) : Location :=
  ⟨"<builtin:" ++ group ++ ">", index % UInt32.size + 1, 1⟩

instance : ToString Location where
  toString l := l.file ++ ":" ++ toString l.line ++ ":" ++ toString l.column

end Location

end NodeSchema

import NodeSchema.Generated.Options

/-!
# Commands
-/

namespace NodeSchema

/-- What the program can be asked to do. Without a schema file it works on the built-in schema. -/
inductive Command where
  /-- Writes the generated units into a directory. -/
  | generate (schema : Option String) (dir : String) (options : Options)
  /-- Prints a summary, and the sizes of all records if asked for. -/
  | check (schema : Option String) (layout : Bool)
  /-- Prints the registry as JSON. -/
  | dump (schema : Option String)
deriving DecidableEq, Repr

/-- Why the arguments give no command. -/
inductive Ending where
  /-- They are not what the program understands. -/
  | usage
  /-- They ask for help. -/
  | help
  /-- They ask for the version. -/
  | version
deriving DecidableEq, Repr

/-- How the program ends. -/
structure Outcome where
  code : Nat
  stdout : String
  stderr : String
deriving DecidableEq, Repr

end NodeSchema

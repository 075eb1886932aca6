/-!
# Options of the generated units
-/

namespace NodeSchema

/-- The names and the boilerplate of the generated units. -/
structure Options where
  /-- The file of the declarations, which the operations include. -/
  headerName : String := "ast.h"
  /-- The file of the operations. -/
  sourceName : String := "ast.c"
  /-- The include guard of the declarations. -/
  guard : String := "saffron_AST_H"
  /-- The files that the declarations include. -/
  includes : List String := ["../scanner.h", "../value.h", "../memory.h"]
deriving DecidableEq, Repr, Inhabited

/-- The line that includes a file. -/
def includeLine (file : String) : String :=
  "#include \"" ++ file ++ "\""

end NodeSchema

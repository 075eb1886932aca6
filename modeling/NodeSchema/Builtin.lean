import NodeSchema.Registry.Build

/-!
# The built-in schema

The node families of an interpreter's front end. Type nodes come first, since the base records of
expressions and parameters point at them.
-/

namespace NodeSchema.Builtin

/-- Types. -/
def typeNodes : List String :=
  [ "TypeNode         : Node self",
    "Simple           : Token name, TypeNodeArray generics",
    "Functor          : TypeNodeArray arguments, TypeNode *returnType, TypeNodeArray generics",
    "Union            : TypeNode* left, TypeNode* right",
    "Interface        : Token name, struct Variable* superType, StmtArray body, TypeNodeArray generics",
    "TypeDeclaration  : Token name, TypeNode* target, TypeNodeArray generics" ]

/-- Expressions. -/
def exprs : List String :=
  [ "Expr     : Node self, TypeNode *type",
    "Binary   : Expr *left, Token operator, Expr* right",
    "Grouping : Expr* expression",
    "Literal  : Value value",
    "Unary    : Token operator, Expr* right",
    "Variable : Token name",
    "AltAssign: Token name, Token operator, Expr* value",
    "Assign   : Token name, Expr* value",
    "Logical  : Expr* left, Token operator, Expr* right",
    "Call     : Expr* callee, Token paren, ExprArray arguments",
    "GetItem  : Expr* object, Token bracket, Expr* index",
    "Get      : Expr* object, Token name",
    "Set      : Expr* object, Token name, Expr* value",
    "Super    : Token keyword, Token method",
    "This     : Token keyword",
    "Yield    : Expr* expression",
    "Lambda   : ParameterArray params, StmtArray body, TypeNodeArray generics",
    "List     : ExprArray items, Token bracket",
    "Map      : ExprArray keys, ExprArray values, Token brace" ]

/-- Statements. -/
def stmts : List String :=
  [ "Stmt       : Node self",
    "Expression : Expr* expression, TypeNode* type",
    "Var        : Token name, Expr* initializer, TypeNode *type, AssignmentType assignmentType",
    "Block      : StmtArray statements",
    "Function   : Token name, ParameterArray params, TypeNodeArray generics, StmtArray body, FunctionType functionType, TypeNode *returnType",
    "Class      : Token name, struct Variable* superclass, StmtArray body, TypeNodeArray generics",
    "If         : Expr* condition, Stmt* thenBranch, Stmt* elseBranch",
    "While      : Expr* condition, Stmt* body",
    "For        : Stmt* initializer, Expr* condition, Expr* increment, Stmt* body",
    "Break      : Token keyword",
    "Return     : Token keyword, Expr* value",
    "Import     : Expr* expression, Token name",
    "Enum       : Token name, StmtArray body",
    "EnumItem   : Token name, ParameterArray params",
    "MethodSig  : Token name, ParameterArray params, TypeNode *returnType, FunctionType functionType, TypeNodeArray generics" ]

/-- Parameters. -/
def parameters : List String :=
  [ "Parameter  : Node self, Token name, TypeNode* type",
    "Positional : ",
    "Keyword    : Expr* default_",
    "Variadic   : " ]

/-- The kinds of functions. -/
def functionTypes : List String :=
  [ "TYPE_FUNCTION",
    "TYPE_SCRIPT",
    "TYPE_METHOD",
    "TYPE_INITIALIZER" ]

/-- The kinds of assignments. -/
def assignmentTypes : List String :=
  [ "TYPE_FIELD",
    "TYPE_VARIABLE" ]

/-- The families in the order of their declaration. -/
def families : List (String × List String) :=
  [("typeNode", typeNodes), ("expr", exprs), ("stmt", stmts), ("parameter", parameters)]

/-- The definitions of the built-in schema. -/
def source : Source :=
  { Source.ofTables families with
    enums := [⟨"FunctionType", functionTypes, .builtin "enums" 0⟩,
      ⟨"AssignmentType", assignmentTypes, .builtin "enums" 1⟩] }

/-- The registry of the built-in schema. -/
def registry : Except Stop Registry :=
  source.build

end NodeSchema.Builtin

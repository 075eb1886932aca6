import NodeSchema.C.Unit

/-!
# Container code

The fragment of C in which the operations of a container are written: it reads and writes the members
of a record behind a pointer, and it grows and releases a buffer by macros that take the type of the
elements. `Function.toDecl` prints a function of the fragment.
-/

namespace NodeSchema.C.Code

/-- An expression. -/
inductive Expr where
  | var (x : String)
  | num (n : Nat)
  | null
  /-- A member of the record that a variable points at. -/
  | member (x name : String)
  /-- An element of a buffer. -/
  | slot (buffer index : Expr)
  | sum (a b : Expr)
  /-- The capacity after growing from a capacity. -/
  | grownCapacity (old : Expr)
  /-- A buffer after growing from one capacity to another. -/
  | grownBuffer (element : TypeSpec) (buffer old new : Expr)
deriving DecidableEq, Repr

/-- A statement. -/
inductive Stmt where
  /-- Declares a variable of type `int` with its first value. -/
  | declareInt (x : String) (value : Expr)
  | assign (target value : Expr)
  | increment (target : Expr)
  /-- Releases a buffer of a capacity. -/
  | release (element : TypeSpec) (buffer capacity : Expr)
  /-- Calls a function with a variable. -/
  | call (function x : String)
  | blank
  /-- Runs the body if the first expression is less than the second. -/
  | ifLess (a b : Expr) (body : List Stmt)
deriving Repr

/-- A function of the fragment. -/
structure Function where
  returnType : TypeSpec
  name : String
  params : List Field
  body : List Stmt
deriving Repr

/-- An expression as it is printed. -/
def Expr.render : Expr → String
  | var x => x
  | num n => toString n
  | null => "NULL"
  | member x name => x ++ "->" ++ name
  | slot buffer index => buffer.render ++ "[" ++ index.render ++ "]"
  | sum a b => a.render ++ " + " ++ b.render
  | grownCapacity old => "GROW_CAPACITY(" ++ old.render ++ ")"
  | grownBuffer element buffer old new =>
    "GROW_ARRAY(" ++ toString element ++ ", " ++ buffer.render ++ ", " ++ old.render ++ ", " ++
      new.render ++ ")"

mutual

/-- A statement as it is printed. -/
def Stmt.toStmt : Stmt → C.Stmt
  | .declareInt x value => .line ("int " ++ x ++ " = " ++ value.render ++ ";")
  | .assign target value => .line (target.render ++ " = " ++ value.render ++ ";")
  | .increment target => .line (target.render ++ "++;")
  | .release element buffer capacity =>
    .line ("FREE_ARRAY(" ++ toString element ++ ", " ++ buffer.render ++ ", " ++
      capacity.render ++ ");")
  | .call function x => .line (function ++ "(" ++ x ++ ");")
  | .blank => .blank
  | .ifLess a b body => .cond (a.render ++ " < " ++ b.render) (toBody body)

/-- Statements as they are printed. -/
def toBody : List Stmt → List C.Stmt
  | [] => []
  | s :: ss => s.toStmt :: toBody ss

end

/-- A function as it is printed. -/
def Function.toDecl (f : Function) : FunctionDecl :=
  ⟨f.returnType, f.name, f.params, toBody f.body⟩

end NodeSchema.C.Code

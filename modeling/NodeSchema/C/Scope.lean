import NodeSchema.C.Code

/-!
# Scopes of container code

Where the code of the fragment passes a type to a macro, and which variables are in scope there. A
variable is in scope from its declarator to the end of its block, a parameter in the whole body. The
macros are replaced before names are resolved, so a variable in scope hides a type of its name that is
passed to a macro.

* `Function.typeUses`: the types that a function passes to macros, each with the variables in scope.
-/

namespace NodeSchema.C.Code

/-- A type that is passed to a macro. -/
structure TypeUse where
  type : TypeSpec
  /-- The variables in scope, the innermost one first. -/
  scope : List String
deriving DecidableEq, Repr

/-- A variable in scope hides the type. -/
def TypeUse.Hidden (u : TypeUse) : Prop :=
  u.type.base ∈ u.scope

instance (u : TypeUse) : Decidable u.Hidden :=
  inferInstanceAs (Decidable (_ ∈ _))

/-- The types that an expression passes to macros. -/
def Expr.typeUses (scope : List String) : Expr → List TypeUse
  | var _ | num _ | null | member .. => []
  | slot buffer index => buffer.typeUses scope ++ index.typeUses scope
  | sum a b => a.typeUses scope ++ b.typeUses scope
  | grownCapacity old => old.typeUses scope
  | grownBuffer element buffer old new =>
    ⟨element, scope⟩ :: (buffer.typeUses scope ++ old.typeUses scope ++ new.typeUses scope)

/-- The variables that a statement declares for the statements that follow it in its block. -/
def Stmt.declared : Stmt → List String
  | declareInt x _ => [x]
  | _ => []

mutual

/-- The types that a statement passes to macros. -/
def Stmt.typeUses (scope : List String) : Stmt → List TypeUse
  -- a variable is in scope in its own first value
  | .declareInt x value => value.typeUses (x :: scope)
  | .assign target value => target.typeUses scope ++ value.typeUses scope
  | .increment target => target.typeUses scope
  | .release element buffer capacity =>
    ⟨element, scope⟩ :: (buffer.typeUses scope ++ capacity.typeUses scope)
  | .call .. | .blank => []
  | .ifLess a b body => a.typeUses scope ++ b.typeUses scope ++ bodyTypeUses scope body

/-- The types that the statements of a block pass to macros. -/
def bodyTypeUses (scope : List String) : List Stmt → List TypeUse
  | [] => []
  | s :: ss => s.typeUses scope ++ bodyTypeUses (s.declared ++ scope) ss

end

/-- The types that a function passes to macros. -/
def Function.typeUses (f : Function) : List TypeUse :=
  bodyTypeUses (f.params.map (·.name)) f.body

end NodeSchema.C.Code

import NodeSchema.C.Code
import NodeSchema.Generated.Options
import NodeSchema.Registry.Basic

/-!
# The operations unit

Three functions for the container of each family: one makes it empty, one appends an element, and one
releases the buffer. Releasing a container never touches the nodes that its slots point at.
-/

namespace NodeSchema

open C Code

/-- The functions of a container. -/
structure ContainerOps where
  init : Function
  write : Function
  free : Function

namespace Family

/-- The parameter that points at the container. -/
def arrayName (f : Family) : String :=
  f.group ++ "Array"

/-- The buffer of the container. -/
def buffer (f : Family) : Expr :=
  .member f.arrayName f.containerMember

/-- The functions of the container of a family. -/
def containerOps (f : Family) : ContainerOps :=
  let array := f.arrayName
  let param : Field := ⟨.pointer f.containerType, array⟩
  let count : Expr := .member array "count"
  let capacity : Expr := .member array "capacity"
  { init :=
      { returnType := .value "void"
        name := "init" ++ f.containerType
        params := [param]
        body :=
          [ .assign count (.num 0)
            , .assign capacity (.num 0)
            , .assign f.buffer .null ] }
    write :=
      { returnType := .value "void"
        name := "write" ++ f.containerType
        params := [param, ⟨f.elementType, f.group⟩]
        body :=
          [ .ifLess capacity (.sum count (.num 1))
              [ .declareInt "oldCapacity" capacity
                , .assign capacity (.grownCapacity (.var "oldCapacity"))
                , .assign f.buffer
                    (.grownBuffer f.elementType f.buffer (.var "oldCapacity") capacity) ]
            , .blank
            , .assign (.slot f.buffer count) (.var f.group)
            , .increment count ] }
    free :=
      { returnType := .value "void"
        name := "free" ++ f.containerType
        params := [param]
        body :=
          [ .release f.elementType f.buffer capacity
            , .call ("init" ++ f.containerType) array ] } }

end Family

/-- The functions of a container in the order in which they are declared and defined. -/
def ContainerOps.toList (ops : ContainerOps) : List FunctionDecl :=
  [ops.init.toDecl, ops.write.toDecl, ops.free.toDecl]

/-- The operations of all containers, after the inclusion of the declarations. -/
def operationsUnit (r : Registry) (o : Options) : SourceUnit where
  items := .directives [includeLine o.headerName] ::
    r.families.flatMap fun f => f.containerOps.toList.map .definition

end NodeSchema

import NodeSchema.Capacity
import NodeSchema.Generated.Operations

/-!
# The declarations unit

The plain enums, the enum of all discriminators, the header of every node, the base record and the
container of each family with the prototypes of its operations, and one record per variant. A variant
embeds the base record of its family as its first member.
-/

namespace NodeSchema

open C

/-- The enum of all discriminators. -/
def Registry.discriminatorEnum (r : Registry) : EnumDecl :=
  ⟨discriminatorEnumName, r.discriminators.map (·.name)⟩

/-- What every node starts with: its discriminator, its line, the collector's mark and its link. -/
def nodeHeader : RecordDecl :=
  ⟨nodeHeaderName, .tagged,
    [ ⟨.value discriminatorEnumName, "type"⟩
      , ⟨.value "int", "lineno"⟩
      , ⟨.value "bool", "isMarked"⟩
      , ⟨.pointer ("struct " ++ nodeHeaderName), "next"⟩ ]⟩

/-- The function that allocates a node. -/
def allocateNode : FunctionDecl :=
  ⟨.pointer nodeHeaderName, "allocateNode",
    [⟨.value "size_t", "size"⟩, ⟨.value discriminatorEnumName, "type"⟩], []⟩

namespace Family

/-- The base record of a family. -/
def baseDecl (f : Family) : RecordDecl :=
  ⟨f.base.name, .typedef, f.base.fields⟩

/-- The container of a family. -/
def containerDecl (f : Family) : RecordDecl :=
  ⟨f.containerType, .typedef,
    [ ⟨.value "int", "count"⟩
      , ⟨.value "int", "capacity"⟩
      , ⟨⟨f.base.name, 2⟩, f.containerMember⟩ ]⟩

/-- The record of a variant: the base record of the family, then the fields of the variant. -/
def variantDecl (f : Family) (v : Record) : RecordDecl :=
  ⟨v.name, .struct, ⟨.value f.base.name, headerMember⟩ :: v.fields⟩

/-- The declarations of a family. -/
def declarations (f : Family) : List Item :=
  [.record f.baseDecl, .record f.containerDecl, .prototypes f.containerOps.toList]

end Family

/-- The macros of the declarations unit. -/
def macroItems : List Item :=
  let least := toString minCapacity
  [ .directives
      ["#define ALLOCATE_NODE(type, nodeType) (type*) allocateNode(sizeof(type), nodeType)"]
    , .directives
        [ "#ifndef GROW_CAPACITY"
          , "#define GROW_CAPACITY(capacity) ((capacity) < " ++ least ++ " ? " ++ least ++
              " : (capacity) * 2)"
          , "#endif" ] ]

/-- The lines that include files. -/
def includeItems (o : Options) : List Item :=
  match o.includes with
  | [] => []
  | files => [.directives (files.map includeLine)]

/-- The declarations of a registry. -/
def declarationsUnit (r : Registry) (o : Options) : SourceUnit where
  items :=
    [.directives ["#ifndef " ++ o.guard, "#define " ++ o.guard]] ++ includeItems o ++
      r.enums.map (fun e => .enum ⟨e.name, e.members⟩) ++ macroItems ++
      [.enum r.discriminatorEnum, .record nodeHeader, .prototypes [allocateNode]] ++
      r.families.flatMap Family.declarations ++
      r.variants.map (fun (f, v) => .record (f.variantDecl v)) ++
      [.directives ["#endif // " ++ o.guard]]

/-- The texts of both generated units. -/
structure Artifacts where
  operations : String
  declarations : String
deriving DecidableEq, Repr

/-- The generated units of a registry. -/
def Registry.generate (r : Registry) (o : Options) : Artifacts where
  operations := (operationsUnit r o).render
  declarations := (declarationsUnit r o).render

end NodeSchema

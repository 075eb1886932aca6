/-!
# Fields

A field has a type and a name. Its type says how a node owns what the field holds: a pointer is an
owned child, a container is an owned sequence of children, and anything else is a plain value.
-/

namespace NodeSchema

/-- How a node owns what one of its fields holds. -/
inductive Ownership where
  /-- A value stored in the node. -/
  | value
  /-- One child node. -/
  | child
  /-- A sequence of child nodes. -/
  | sequence
deriving DecidableEq, Repr

/-- The wording of an ownership in messages. -/
def Ownership.text : Ownership → String
  | value => "a value field"
  | child => "an owned child"
  | sequence => "an owned child sequence"

/-- A type: words separated by single spaces, and how many pointer markers follow them. The depth has
no bound here. A program that keeps it in one byte has only the types up to `TypeSpec.maxDepth`. -/
structure TypeSpec where
  base : String
  depth : Nat
deriving DecidableEq, Repr, Inhabited

namespace TypeSpec

/-- The type that is `base` itself. -/
def value (base : String) : TypeSpec :=
  ⟨base, 0⟩

/-- The type of pointers to `base`. -/
def pointer (base : String) : TypeSpec :=
  ⟨base, 1⟩

/-- The largest depth that one byte holds. -/
def maxDepth : Nat :=
  255

/-- Whether a type has a pointer marker. -/
def isPointer (t : TypeSpec) : Bool :=
  0 < t.depth

/-- What follows the last space of the base: its name without a keyword such as `struct`. -/
def typeName (t : TypeSpec) : String :=
  String.ofList (t.base.toList.reverse.takeWhile (· ≠ ' ')).reverse

/-- Whether a name is that of a container: more than the ending `Array`. -/
def isContainerName (name : String) : Bool :=
  match "Array".toList.isSuffixOf? name.toList with
  | some front => !front.isEmpty
  | none => false

/-- The ownership that a type implies. -/
def ownership (t : TypeSpec) : Ownership :=
  if t.isPointer then .child
  else if isContainerName t.typeName then .sequence
  else .value

instance : ToString TypeSpec where
  toString t := t.base ++ String.ofList (List.replicate t.depth '*')

end TypeSpec

/-- A member of a record. -/
structure Field where
  type : TypeSpec
  name : String
deriving DecidableEq, Repr, Inhabited

namespace Field

/-- How the node owns what the field holds. -/
def ownership (f : Field) : Ownership :=
  f.type.ownership

/-- The container type behind an owned sequence. -/
def containerType? (f : Field) : Option String :=
  if f.ownership = .sequence then some f.type.typeName else none

instance : ToString Field where
  toString f := toString f.type ++ " " ++ f.name

end Field

end NodeSchema

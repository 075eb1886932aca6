import NodeSchema.Field.Basic
import NodeSchema.Location
import NodeSchema.Naming

/-!
# The registry of node families

A family is a base record with its variants, and the registry lists the families, the plain enums
that precede them and one discriminator per variant. The discriminators are in the order of the
variants: family by family, and in each family as they are declared.
-/

namespace NodeSchema

/-- The name of the record that every node starts with. -/
def nodeHeaderName : String := "Node"

/-- The name of the enum of all discriminators. -/
def discriminatorEnumName : String := "NodeType"

/-- The name of the first member of every base record and variant. -/
def headerMember : String := "self"

/-- A record with the place where it is declared. -/
structure Record where
  name : String
  fields : List Field
  loc : Location
deriving DecidableEq, Repr, Inhabited

/-- The fields after the embedded header. -/
def Record.extraFields (r : Record) : List Field :=
  match r.fields with
  | [] => []
  | f :: fs => if f.name = headerMember then fs else f :: fs

/-- A base record, the variants that extend it, and the name of the group they form. -/
structure Family where
  group : String
  base : Record
  variants : List Record
deriving DecidableEq, Repr, Inhabited

namespace Family

def title (f : Family) : String :=
  titleCase f.group

def containerType (f : Family) : String :=
  NodeSchema.containerType f.group

def containerMember (f : Family) : String :=
  NodeSchema.containerMember f.group

/-- The type of the elements of the container: pointers to the base record. -/
def elementType (f : Family) : TypeSpec :=
  .pointer f.base.name

/-- The variant of a name. -/
def variant? (f : Family) (name : String) : Option Record :=
  f.variants.find? (·.name = name)

end Family

/-- A plain enum that precedes the families. -/
structure PreludeEnum where
  name : String
  members : List String
deriving DecidableEq, Repr, Inhabited

/-- A discriminator: its enumerator, its variant and the position of the family of the variant. -/
structure Discriminator where
  name : String
  variant : String
  family : Nat
deriving DecidableEq, Repr, Inhabited

/-- A consistent schema. -/
structure Registry where
  enums : List PreludeEnum
  families : List Family
  discriminators : List Discriminator
deriving DecidableEq, Repr, Inhabited

namespace Registry

/-- The family of a group. -/
def family? (r : Registry) (group : String) : Option Family :=
  r.families.find? (·.group = group)

/-- The family whose base record has this name. -/
def familyByBase? (r : Registry) (base : String) : Option Family :=
  r.families.find? (·.base.name = base)

/-- The family whose container type has this name. -/
def familyByContainer? (r : Registry) (container : String) : Option Family :=
  r.families.find? (·.containerType = container)

/-- All variants with their families, in the order of the discriminators. -/
def variants (r : Registry) : List (Family × Record) :=
  r.families.flatMap fun f => f.variants.map fun v => (f, v)

/-- The variant of a name, with its family. -/
def variant? (r : Registry) (name : String) : Option (Family × Record) :=
  r.variants.find? (·.2.name = name)

/-- The number of variants. -/
def variantCount (r : Registry) : Nat :=
  r.discriminators.length

/-- The position of the discriminator of a variant. -/
def discriminatorOf? (r : Registry) (variant : String) : Option Nat :=
  r.discriminators.findIdx? (·.variant = variant)

end Registry

end NodeSchema

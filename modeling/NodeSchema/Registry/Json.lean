import NodeSchema.Json.Value
import NodeSchema.Registry.Basic

/-!
# A registry as JSON

Locations are left out.
-/

namespace NodeSchema

open Json

/-- A type as JSON. -/
def TypeSpec.toJson (t : TypeSpec) : Value :=
  .record [("base", .text t.base), ("pointer_depth", .number t.depth)]

/-- A field as JSON. -/
def Field.toJson (f : Field) : Value :=
  .record [("type", f.type.toJson), ("name", .text f.name)]

/-- A record as JSON. -/
def Record.toJson (r : Record) : Value :=
  .record [("name", .text r.name), ("fields", .list (r.fields.map Field.toJson))]

/-- A family as JSON. -/
def Family.toJson (f : Family) : Value :=
  .record [("group", .text f.group), ("base", f.base.toJson),
    ("variants", .list (f.variants.map Record.toJson))]

/-- An enum as JSON. -/
def PreludeEnum.toJson (e : PreludeEnum) : Value :=
  .record [("name", .text e.name), ("members", .list (e.members.map .text))]

/-- A discriminator as JSON. -/
def Discriminator.toJson (d : Discriminator) : Value :=
  .record [("name", .text d.name), ("variant", .text d.variant), ("family", .number d.family)]

/-- A registry as JSON. -/
def Registry.toJson (r : Registry) : Value :=
  .record [("enums", .list (r.enums.map PreludeEnum.toJson)),
    ("families", .list (r.families.map Family.toJson)),
    ("discriminators", .list (r.discriminators.map Discriminator.toJson))]

end NodeSchema

import NodeSchema.Store.Basic

/-!
# The fields of nodes

A field is found by its name: a field of the variant hides a field of the base record. Reading and
writing look at the kind of the slot, and refuse a field that is owned in another way.

* `Store.place` finds the slot of a field.
-/

namespace NodeSchema

variable {r : Registry}

/-- The slot of a field in a node. -/
structure Place (r : Registry) where
  node : Node r
  variant : Record
  field : Field
  index : Nat

namespace Place

/-- What is in the slot. -/
def slot? (p : Place r) : Option Slot :=
  p.node.slots[p.index]?

/-- The error that the field is not owned as `wanted`. -/
def mismatch (p : Place r) (wanted : Ownership) : Error :=
  .ownershipMismatch p.variant.name p.field.name wanted.text p.field.ownership.text

end Place

/-- A field of the nodes of a variant and the position of its slot. -/
def Family.nodeField? (f : Family) (v : Record) (name : String) : Option (Field × Nat) :=
  let extras := f.base.extraFields
  ((v.fields.zipIdx extras.length).find? (·.1.name = name)).or
    (extras.zipIdx.find? (·.1.name = name))

namespace Store

/-- The slot of a field of a node. -/
def place (s : Store r) (h : Handle) (field : String) : Except Error (Place r) := do
  let n ← s.node h
  let (f, v) ← n.shape
  match f.nodeField? v field with
  | some (field, i) => return ⟨n, v, field, i⟩
  | none => throw (.unknownField v.name field)

/-- The value in a field. -/
def value (s : Store r) (h : Handle) (field : String) : Except Error (Option String) := do
  let p ← s.place h field
  match p.slot? with
  | some (.value text) => return text
  | _ => throw (p.mismatch .value)

/-- The child in a field. -/
def child (s : Store r) (h : Handle) (field : String) : Except Error (Option Handle) := do
  let p ← s.place h field
  match p.slot? with
  | some (.child node) => return node
  | _ => throw (p.mismatch .child)

/-- The children in a field. -/
def children (s : Store r) (h : Handle) (field : String) : Except Error (Sequence Handle) := do
  let p ← s.place h field
  match p.slot? with
  | some (.children nodes) => return nodes
  | _ => throw (p.mismatch .sequence)

/-- Writes a value into a field, and gives the one that was there. -/
def setValue (h : Handle) (field text : String) : StoreM r (Option String) := do
  let p ← (← get).place h field
  match p.slot? with
  | some (.value old) =>
    modify (·.update h (·.setSlot p.index fun _ => .value (some text)))
    return old
  | _ => throw (p.mismatch .value)

end Store

end NodeSchema

import NodeSchema.Store.Fields

/-!
# Attaching children

A node has at most one owner and never owns itself, directly or through others. A child is attached
only if it has no owner, is not above the node it is attached to, and is of the type that the field
holds.

* `Store.attachPlace` decides whether a child may be attached, and names the reason if not.
* `Store.lineage` is the way from a node up to its root.
-/

namespace NodeSchema

/-- Whether a field of a type holds nodes of this variant of a family. The type is a family, by its
base record or by its container, or one variant. A type that the registry does not have holds any
node. -/
def Registry.holds (r : Registry) (type : String) (f : Family) (v : Record) : Bool :=
  match (r.familyByBase? type).or (r.familyByContainer? type) with
  | some g => f.group = g.group
  | none => (r.variant? type).isNone || v.name = type

namespace Store

variable {r : Registry}

/-- At most `steps` owners above a node, from the node up. -/
def ownersUp (s : Store r) : (steps : Nat) → Handle → List Handle
  | 0, _ => []
  | steps + 1, h =>
    match (s.get? h).bind (·.owner) with
    | some p => p :: s.ownersUp steps p
    | none => []

/-- A node and all that own it, from the node up. No way up has more nodes than there are cells. -/
def lineage (s : Store r) (h : Handle) : List Handle :=
  h :: s.ownersUp s.cells.size h

/-- The slot of a field for a child that may be attached there, where the node has to own the field
as `wanted`. -/
def attachPlace (s : Store r) (wanted : Ownership) (h : Handle) (field : String) (c : Handle) :
    Except Error (Place r) := do
  let p ← s.place h field
  if p.field.ownership ≠ wanted then throw (p.mismatch wanted)
  let n ← s.node c
  if n.owner.isSome then throw (.alreadyOwned c.index)
  if c ∈ s.lineage h then throw (.ownershipCycle c.index)
  let (f, v) ← n.shape
  if r.holds p.field.type.typeName f v then return p
  else throw (.familyMismatch p.variant.name p.field.name p.field.type.typeName v.name)

/-- Sets the owner of a node. -/
def setOwner (s : Store r) (h : Handle) (owner : Option Handle) : Store r :=
  s.update h fun n => { n with owner }

/-- Attaches a child. The child that was there before has no owner after that. -/
def setChild (h : Handle) (field : String) (c : Handle) : StoreM r (Option Handle) := do
  let p ← (← get).attachPlace .child h field c
  match p.slot? with
  | some (.child previous) =>
    modify (·.update h (·.setSlot p.index fun _ => .child (some c)))
    modify (·.setOwner c (some h))
    if let some old := previous then modify (·.setOwner old none)
    return previous
  | _ => throw (p.mismatch .child)

/-- Attaches a child after those that a field holds. -/
def pushChild (h : Handle) (field : String) (c : Handle) : StoreM r Unit := do
  let p ← (← get).attachPlace .sequence h field c
  match p.slot? with
  | some (.children nodes) =>
    modify (·.update h (·.setSlot p.index fun _ => .children (nodes.push c)))
    modify (·.setOwner c (some h))
  | _ => throw (p.mismatch .sequence)

end Store

end NodeSchema

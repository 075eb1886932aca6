import NodeSchema.Store.Basic

/-!
# Making and asking nodes

A new node has an empty slot for each of its fields, no owner and no mark. It goes into the cell that
was released last, or into a new one when no cell is free.
-/

namespace NodeSchema

/-- A node of a variant, with empty slots. -/
def Node.fresh {r : Registry} (f : Family) (v : Record) (kind line : Nat) : Node r where
  kind
  line
  owner := none
  marked := false
  slots := (f.nodeFields v).map Slot.ofField

namespace Store

variable {r : Registry}

/-- Puts a node into a cell. -/
def insert (s : Store r) (n : Node r) : Handle × Store r :=
  match s.free with
  | i :: free =>
    let generation := ((s.cells[i]?).map (·.generation)).getD 0
    (⟨i, generation⟩,
      { cells := s.cells.setIfInBounds i ⟨generation, some n⟩, free, size := s.size + 1 })
  | [] =>
    (⟨s.cells.size, 0⟩,
      { cells := s.cells.push ⟨0, some n⟩, free := [], size := s.size + 1 })

/-- Makes a node of the variant of a name. -/
def allocate (variant : String) (line : Nat) : StoreM r Handle := do
  match r.variant? variant, r.discriminatorOf? variant with
  | some (f, v), some kind => modifyGet (·.insert (.fresh f v kind line))
  | _, _ => throw (.unknownVariant variant)

/-- The header of a node. -/
def header (s : Store r) (h : Handle) : Except Error Header :=
  return (← s.node h).toHeader

/-- The name of the variant of a node. -/
def variantName (s : Store r) (h : Handle) : Except Error String :=
  return (← (← s.node h).shape).2.name

/-- The name of the discriminator of a node. -/
def discriminator (s : Store r) (h : Handle) : Except Error String := do
  match r.discriminators[(← s.node h).kind]? with
  | some d => return d.name
  | none => throw (.staleNode h.index)

/-- The family of a node. -/
def family (s : Store r) (h : Handle) : Except Error Family :=
  return (← (← s.node h).shape).1

/-- The owner of a node. -/
def owner (s : Store r) (h : Handle) : Except Error (Option Handle) :=
  return (← s.node h).owner

/-- Whether a node is marked. -/
def isMarked (s : Store r) (h : Handle) : Except Error Bool :=
  return (← s.node h).marked

/-- Marks a node, and says whether it was marked. -/
def mark (h : Handle) : StoreM r Bool := do
  let n ← (← get).node h
  modify (·.update h fun n => { n with marked := true })
  return n.marked

/-- Removes the marks of all nodes. -/
def clearMarks : StoreM r Unit :=
  modify fun s => { s with
    cells := s.cells.map fun c =>
      { c with node? := c.node?.map fun n => { n with marked := false } } }

end Store

end NodeSchema

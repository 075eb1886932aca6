import NodeSchema.Error
import NodeSchema.Registry.Basic
import NodeSchema.Sequence

/-!
# The store of nodes

Nodes of all variants live in the cells of one store. A handle names a cell and the generation of its
node: the cell of a node that was released is used again under the next generation, so old handles
stay stale. Each node has one slot per field, and the slots of children and the owners of nodes are
two records of one forest.

* `Store.get?` is the view of a store: the node of a handle. Every operation is said by what it does
  to this view, to the free cells and to the number of nodes.
* `Registry.shape` is what a node knows of its variant: it stores the position of its discriminator,
  and its family and its variant are looked up in the registry whenever they are asked for.
* `StoreM` is a computation on a store. What it has changed is kept also when it fails, so that a
  refused operation changes nothing is a property of the operation.
-/

namespace NodeSchema

/-- The cell of a node and the generation of the node. -/
structure Handle where
  index : Nat
  generation : UInt32
deriving DecidableEq, Repr, Inhabited

/-- What a node holds in one of its fields. -/
inductive Slot where
  | value (text : Option String)
  | child (node : Option Handle)
  | children (nodes : Sequence Handle)
deriving DecidableEq, Repr

namespace Slot

/-- The empty slot of a field. -/
def ofField (f : Field) : Slot :=
  match f.ownership with
  | .value => value none
  | .child => child none
  | .sequence => children Sequence.empty

/-- The ownership to which a slot belongs. -/
def ownership : Slot → Ownership
  | value _ => .value
  | child _ => .child
  | children _ => .sequence

@[simp]
theorem ownership_ofField (f : Field) : (ofField f).ownership = f.ownership := by
  unfold ofField
  split <;> simp_all [ownership]

/-- All nodes that a slot holds. -/
def handles : Slot → List Handle
  | value _ => []
  | child node => node.toList
  | children nodes => nodes.toList

/-- A slot after one of its nodes is taken away. -/
def erase (s : Slot) (h : Handle) : Slot :=
  match s with
  | value text => value text
  | child node => child (if node = some h then none else node)
  | children nodes => children (nodes.erase h)

end Slot

/-! ### Nodes -/

/-- The family and the variant of the discriminator at a position. -/
def Registry.shape (r : Registry) (kind : Nat) : Except Error (Family × Record) :=
  let name := ((r.discriminators[kind]?).map (·.variant)).getD ""
  match r.variant? name with
  | some shape => .ok shape
  | none => .error (.unknownVariant name)

/-- The fields of the nodes of a variant: those of the base record after its header, then those of
the variant. -/
def Family.nodeFields (f : Family) (v : Record) : List Field :=
  f.base.extraFields ++ v.fields

/-- What all nodes have: the position of the discriminator, and the line of the program from which
the node comes. -/
structure Header where
  kind : Nat
  line : Nat
deriving DecidableEq, Repr

/-- A node over a registry. -/
structure Node (r : Registry) extends Header where
  /-- The node that holds this one. -/
  owner : Option Handle
  /-- The collector's mark. -/
  marked : Bool
  /-- One slot per field. -/
  slots : List Slot
deriving DecidableEq, Repr

namespace Node

variable {r : Registry}

/-- The family and the variant of a node. -/
def shape (n : Node r) : Except Error (Family × Record) :=
  r.shape n.kind

/-- The fields of a node. -/
def fields (n : Node r) : List Field :=
  match n.shape with
  | .ok (f, v) => f.nodeFields v
  | .error _ => []

/-- The nodes that a node holds, in the order of its slots. -/
def children (n : Node r) : List Handle :=
  n.slots.flatMap Slot.handles

/-- Changes one slot. -/
def setSlot (n : Node r) (i : Nat) (f : Slot → Slot) : Node r :=
  { n with slots := n.slots.modify i f }

@[simp]
theorem slots_setSlot (n : Node r) (i : Nat) (f : Slot → Slot) :
    (n.setSlot i f).slots = n.slots.modify i f :=
  rfl

end Node

/-! ### Stores -/

/-- A place for a node. -/
structure Cell (r : Registry) where
  generation : UInt32
  node? : Option (Node r)
deriving DecidableEq, Repr

/-- The nodes over a registry. -/
structure Store (r : Registry) where
  cells : Array (Cell r)
  /-- The cells without a node, the one that was released last first. -/
  free : List Nat
  /-- The number of nodes. -/
  size : Nat
deriving DecidableEq, Repr

/-- A computation on a store. -/
abbrev StoreM (r : Registry) := ExceptT Error (StateM (Store r))

namespace Store

variable {r : Registry}

/-- The store without cells. -/
def empty : Store r :=
  ⟨#[], [], 0⟩

/-- The node of a handle. A handle is stale when the generation of its cell is another one. -/
def get? (s : Store r) (h : Handle) : Option (Node r) :=
  match s.cells[h.index]? with
  | some c => if c.generation = h.generation then c.node? else none
  | none => none

/-- Whether a handle is that of a node. -/
def contains (s : Store r) (h : Handle) : Bool :=
  (s.get? h).isSome

/-- The node of a handle, or the error that the handle is stale. -/
def node (s : Store r) (h : Handle) : Except Error (Node r) :=
  match s.get? h with
  | some n => .ok n
  | none => .error (.staleNode h.index)

/-- The handles of all nodes in the order of their cells. -/
def handles (s : Store r) : List Handle :=
  s.cells.toList.zipIdx.filterMap fun (c, i) => c.node?.map fun _ => ⟨i, c.generation⟩

/-- Changes the node of a handle. Nothing happens when the handle is stale. -/
def update (s : Store r) (h : Handle) (f : Node r → Node r) : Store r :=
  { s with
    cells := s.cells.modify h.index fun c =>
      if c.generation = h.generation then { c with node? := c.node?.map f } else c }

theorem get?_update_self (s : Store r) (h : Handle) (f : Node r → Node r) :
    (s.update h f).get? h = (s.get? h).map f := by
  simp only [get?, update, Array.getElem?_modify]
  cases s.cells[h.index]? with
  | none => simp
  | some c => by_cases hg : c.generation = h.generation <;> simp [hg]

theorem get?_update_ne (s : Store r) {h k : Handle} (hne : k ≠ h) (f : Node r → Node r) :
    (s.update h f).get? k = s.get? k := by
  simp only [get?, update, Array.getElem?_modify]
  by_cases hi : h.index = k.index
  · rw [if_pos hi]
    cases s.cells[k.index]? with
    | none => simp
    | some c =>
      by_cases hg : c.generation = h.generation
      · have hk : c.generation ≠ k.generation := fun e =>
          hne (by cases h; cases k; simp_all)
        simp only [Option.map_some, if_pos hg, if_neg hk]
      · simp [hg]
  · rw [if_neg hi]

end Store

end NodeSchema

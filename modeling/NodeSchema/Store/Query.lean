import NodeSchema.Store.Allocate
import NodeSchema.Store.Fields

/-!
# Questions about nodes

The operations that read a node, as data. A question does not change the store.
-/

namespace NodeSchema.Store

variable {r : Registry}

/-- A question about a node. -/
inductive Query where
  | header
  | variantName
  | discriminator
  | family
  | owner
  | isMarked
  | value (field : String)
  | child (field : String)
  | children (field : String)
deriving DecidableEq, Repr

/-- What a question gives. -/
inductive Reply where
  | header (x : Header)
  | name (text : String)
  | family (f : Family)
  | node (h : Option Handle)
  | flag (b : Bool)
  | text (t : Option String)
  | nodes (q : Sequence Handle)
deriving DecidableEq, Repr

/-- Asks about the node of a handle. -/
def ask (s : Store r) (h : Handle) : Query → Except Error Reply
  | .header => .header <$> s.header h
  | .variantName => .name <$> s.variantName h
  | .discriminator => .name <$> s.discriminator h
  | .family => .family <$> s.family h
  | .owner => .node <$> s.owner h
  | .isMarked => .flag <$> s.isMarked h
  | .value field => .text <$> s.value h field
  | .child field => .node <$> s.child h field
  | .children field => .nodes <$> s.children h field

end NodeSchema.Store

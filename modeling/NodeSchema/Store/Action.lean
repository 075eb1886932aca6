import NodeSchema.Store.Allocate
import NodeSchema.Store.Attach
import NodeSchema.Store.Release

/-!
# Runs of a store

The operations that change a store, as data. A run performs one action after the other, and goes on
after an action that is refused.

* `Store.perform` performs one action.
* `Store.run` gives the answers of a run and the store that it ends in.
-/

namespace NodeSchema.Store

variable {r : Registry}

/-- An operation that changes a store. -/
inductive Action where
  | allocate (variant : String) (line : Nat)
  | setValue (h : Handle) (field text : String)
  | setChild (h : Handle) (field : String) (c : Handle)
  | pushChild (h : Handle) (field : String) (c : Handle)
  | mark (h : Handle)
  | clearMarks
  | freeTree (root : Handle)
deriving DecidableEq, Repr

/-- What an action gives. -/
inductive Answer where
  /-- A new node. -/
  | made (h : Handle)
  /-- The value that was replaced. -/
  | text (old : Option String)
  /-- The child that was replaced. -/
  | node (old : Option Handle)
  /-- Whether a node was marked. -/
  | flag (old : Bool)
  /-- The number of nodes that were released. -/
  | count (n : Nat)
  | done
deriving DecidableEq, Repr

/-- The computation of an action. -/
def Action.toStoreM : Action → StoreM r Answer
  | allocate variant line => .made <$> Store.allocate variant line
  | setValue h field text => .text <$> Store.setValue h field text
  | setChild h field c => .node <$> Store.setChild h field c
  | pushChild h field c => (fun _ => .done) <$> Store.pushChild h field c
  | mark h => .flag <$> Store.mark h
  | clearMarks => (fun _ => .done) <$> Store.clearMarks
  | freeTree root => .count <$> Store.freeTree root

/-- Performs an action. -/
def perform (s : Store r) (a : Action) : Except Error Answer × Store r :=
  a.toStoreM.run s

/-- Performs actions one after the other. -/
def run (s : Store r) : List Action → List (Except Error Answer) × Store r
  | [] => ([], s)
  | a :: rest =>
    let (answer, s) := s.perform a
    let (answers, s) := s.run rest
    (answer :: answers, s)

end NodeSchema.Store

import NodeSchema.C.Code

/-!
# Running container code

What the statements of the fragment do to a container and to the buffers on the heap. A buffer is a
list of slots, and a slot that was not written to holds nothing. The container has the members that its
record declares, and before they are assigned to they may hold anything.

Integers are bounded, and an integer that is too large is an overflow. Everything else that C leaves
undefined stops a run as well: a member that the record does not declare, a slot outside of its buffer,
and growing or releasing a buffer that is not live or has another number of slots.

What grows an array is not part of the units, so it is a parameter. What grows a capacity is a macro
that the declarations define, and `Replacement` is what it is replaced by.
-/

namespace NodeSchema.C.Code

/-! ### Macros -/

/-- What a macro with one parameter is replaced by. -/
inductive Replacement where
  | parameter
  | num (n : Nat)
  | product (a b : Replacement)
  /-- The third one if the first one is less than the second one, and the fourth one otherwise. -/
  | ifLess (a b c d : Replacement)
deriving DecidableEq, Repr

/-- A replacement as it is printed. -/
def Replacement.render (parameterName : String) : Replacement → String
  | parameter => "(" ++ parameterName ++ ")"
  | num n => toString n
  | product a b => a.render parameterName ++ " * " ++ b.render parameterName
  | ifLess a b c d =>
    "(" ++ a.render parameterName ++ " < " ++ b.render parameterName ++ " ? " ++
      c.render parameterName ++ " : " ++ d.render parameterName ++ ")"

/-! ### Machines -/

/-- Why a run stops. -/
inductive Fault where
  /-- An integer is too large. -/
  | overflow
  | undefined
deriving DecidableEq, Repr

/-- The slots of the live buffers by their addresses. -/
abbrev Heap (α : Type) :=
  Nat → Option (List (Option α))

/-- The slots of a buffer. The null pointer has none of them. -/
def Heap.slots? {α : Type} (heap : Heap α) : Option Nat → Option (List (Option α))
  | none => some []
  | some a => heap a

/-- A value of a variable or a member. -/
inductive Value (α : Type) where
  | int (n : Nat)
  | element (x : α)
  /-- A pointer to a buffer, or the null pointer. -/
  | buffer (p : Option Nat)
  /-- The pointer to the container. -/
  | container
deriving DecidableEq, Repr

/-- What a run reads and changes. -/
structure Machine (α : Type) where
  heap : Heap α
  /-- The members of the container that hold a value. -/
  members : String → Option (Value α)
  /-- The variables, the innermost one first. -/
  scope : List (String × Value α)
  /-- The positions of the slots that were written to. -/
  stores : List Nat

/-- What stays the same in a run. -/
structure Env (α : Type) where
  /-- The largest integer. -/
  limit : Nat
  /-- The type of the slots. -/
  element : TypeSpec
  /-- The members that the record of the container declares. -/
  members : List String
  /-- What growing a capacity is replaced by. -/
  growth : Replacement
  /-- Growing a buffer from one number of slots to another. -/
  grow : Heap α → Option Nat → Nat → Nat → Heap α × Nat
  functions : List Function

/-- Where a value is stored. -/
inductive Place where
  | var (x : String)
  | member (name : String)
  | slot (address index : Nat)
deriving DecidableEq, Repr

variable {α : Type}

/-! ### Expressions -/

namespace Value

def toInt : Value α → Except Fault Nat
  | int n => .ok n
  | _ => .error .undefined

def toBuffer : Value α → Except Fault (Option Nat)
  | buffer p => .ok p
  | _ => .error .undefined

end Value

/-- The slots of a buffer that is live and has this number of slots. -/
def Machine.slotsOf (m : Machine α) (p : Option Nat) (n : Nat) : Except Fault (List (Option α)) :=
  match m.heap.slots? p with
  | some slots => if slots.length = n then .ok slots else .error .undefined
  | none => .error .undefined

namespace Env

/-- An integer that is not too large. -/
def int (env : Env α) (n : Nat) : Except Fault Nat :=
  if n ≤ env.limit then .ok n else .error .overflow

/-- What a replacement is for an argument. -/
def expand (env : Env α) (argument : Nat) : Replacement → Except Fault Nat
  | .parameter => .ok argument
  | .num n => env.int n
  | .product a b => do
    let x ← env.expand argument a
    let y ← env.expand argument b
    env.int (x * y)
  | .ifLess a b c d => do
    let x ← env.expand argument a
    let y ← env.expand argument b
    if x < y then env.expand argument c else env.expand argument d

/-- What a member of the container is, if a variable points at it and it is declared. -/
def memberOf (env : Env α) (m : Machine α) (x name : String) : Except Fault String :=
  match m.scope.lookup x with
  | some .container => if name ∈ env.members then .ok name else .error .undefined
  | _ => .error .undefined

/-- The value of an expression without effects. -/
@[simp]
def eval (env : Env α) (m : Machine α) : Expr → Except Fault (Value α)
  | .var x => (m.scope.lookup x).elim (.error .undefined) .ok
  | .num n => .int <$> env.int n
  | .null => .ok (.buffer none)
  | .member x name => do
    let name ← env.memberOf m x name
    (m.members name).elim (.error .undefined) .ok
  | .slot buffer index => do
    let p ← (← env.eval m buffer).toBuffer
    let i ← (← env.eval m index).toInt
    match m.heap.slots? p with
    | some slots => (slots[i]?.join).elim (.error .undefined) fun x => .ok (.element x)
    | none => .error .undefined
  | .sum a b => do
    let x ← (← env.eval m a).toInt
    let y ← (← env.eval m b).toInt
    .int <$> env.int (x + y)
  | .grownCapacity old => do
    let n ← (← env.eval m old).toInt
    .int <$> env.expand n env.growth
  | .grownBuffer .. => .error .undefined

/-- The value of an expression that may grow a buffer, and the machine after that. Growing a buffer
has an effect on the heap, so it is no part of another expression. -/
@[simp]
def evalAssigned (env : Env α) (m : Machine α) : Expr → Except Fault (Value α × Machine α)
  | .grownBuffer element buffer old new => do
    let p ← (← env.eval m buffer).toBuffer
    let n ← (← env.eval m old).toInt
    let k ← (← env.eval m new).toInt
    let _ ← m.slotsOf p n
    if element = env.element then
      let (heap, a) := env.grow m.heap p n k
      .ok (.buffer (some a), { m with heap })
    else
      .error .undefined
  | e => (·, m) <$> env.eval m e

/-- The place of an expression that can be assigned to. -/
@[simp]
def place (env : Env α) (m : Machine α) : Expr → Except Fault Place
  | .var x => .ok (.var x)
  | .member x name => .member <$> env.memberOf m x name
  | .slot buffer index => do
    let p ← (← env.eval m buffer).toBuffer
    let i ← (← env.eval m index).toInt
    p.elim (.error .undefined) fun a => .ok (.slot a i)
  | _ => .error .undefined

end Env

/-! ### Statements -/

/-- The variables after an assignment to the innermost one of a name. -/
def assignVar (x : String) (v : Value α) :
    List (String × Value α) → Except Fault (List (String × Value α))
  | [] => .error .undefined
  | (y, w) :: scope => if y = x then .ok ((y, v) :: scope) else ((y, w) :: ·) <$> assignVar x v scope

namespace Machine

/-- The machine with a value in a member. -/
def setMember (m : Machine α) (name : String) (v : Value α) : Machine α :=
  { m with members := fun n => if n = name then some v else m.members n }

/-- The machine with other slots at an address. -/
def setSlots (m : Machine α) (a : Nat) (slots : Option (List (Option α))) : Machine α :=
  { m with heap := fun b => if b = a then slots else m.heap b }

/-- Stores a value. -/
def store (m : Machine α) : Place → Value α → Except Fault (Machine α)
  | .var x, v => (fun scope => { m with scope }) <$> assignVar x v m.scope
  | .member name, v => .ok (m.setMember name v)
  | .slot a i, .element x =>
    match m.heap a with
    | some slots =>
      if i < slots.length then
        .ok { m.setSlots a (some (slots.set i (some x))) with stores := i :: m.stores }
      else
        .error .undefined
    | none => .error .undefined
  | .slot .., _ => .error .undefined

/-- The machine without a buffer. -/
def release (m : Machine α) : Option Nat → Machine α
  | none => m
  | some a => m.setSlots a none

end Machine

namespace Env

mutual

/-- What a statement does. `call` is what a call of a function does. -/
@[simp]
def exec (env : Env α) (call : String → List (Value α) → Machine α → Except Fault (Machine α))
    (m : Machine α) : Stmt → Except Fault (Machine α)
  | .declareInt x value => do
    let n ← (← env.eval m value).toInt
    .ok { m with scope := (x, .int n) :: m.scope }
  | .assign target value => do
    let (v, m) ← env.evalAssigned m value
    m.store (← env.place m target) v
  | .increment target => do
    let n ← (← env.eval m target).toInt
    m.store (← env.place m target) (.int (← env.int (n + 1)))
  | .release element buffer capacity => do
    let p ← (← env.eval m buffer).toBuffer
    let n ← (← env.eval m capacity).toInt
    let _ ← m.slotsOf p n
    if element = env.element then .ok (m.release p) else .error .undefined
  | .call function x =>
    -- a variable of this name would hide the function
    match m.scope.lookup function with
    | some _ => .error .undefined
    | none => do call function [← env.eval m (.var x)] m
  | .blank => .ok m
  | .ifLess a b body => do
    let x ← (← env.eval m a).toInt
    let y ← (← env.eval m b).toInt
    if x < y then
      let inner ← env.execAll call m body
      -- the variables that the body declares end with it
      .ok { inner with scope := inner.scope.drop (inner.scope.length - m.scope.length) }
    else
      .ok m

/-- What statements do, one after the other. -/
@[simp]
def execAll (env : Env α) (call : String → List (Value α) → Machine α → Except Fault (Machine α))
    (m : Machine α) : List Stmt → Except Fault (Machine α)
  | [] => .ok m
  | s :: ss => do env.execAll call (← env.exec call m s) ss

end

/-- What a call of a function does, with calls inside of calls up to a depth. -/
def call (env : Env α) : Nat → String → List (Value α) → Machine α → Except Fault (Machine α)
  | 0, _, _, _ => .error .undefined
  | depth + 1, name, args, m =>
    match env.functions.find? (·.name = name) with
    | some f =>
      if f.params.length = args.length then do
        let inner ← env.execAll (env.call depth) { m with scope := (f.params.map (·.name)).zip args }
          f.body
        .ok { inner with scope := m.scope }
      else
        .error .undefined
    | none => .error .undefined

end Env

/-! ### Updates -/

namespace Machine

variable (m : Machine α) {name other : String} {v : Value α}

@[simp]
theorem setMember_heap : (m.setMember name v).heap = m.heap :=
  rfl

@[simp]
theorem setMember_scope : (m.setMember name v).scope = m.scope :=
  rfl

@[simp]
theorem setMember_stores : (m.setMember name v).stores = m.stores :=
  rfl

theorem setMember_self : (m.setMember name v).members name = some v :=
  if_pos rfl

theorem setMember_ne (h : other ≠ name) : (m.setMember name v).members other = m.members other :=
  if_neg h

@[simp]
theorem release_members (p : Option Nat) : (m.release p).members = m.members := by
  cases p <;> rfl

@[simp]
theorem release_scope (p : Option Nat) : (m.release p).scope = m.scope := by
  cases p <;> rfl

@[simp]
theorem release_stores (p : Option Nat) : (m.release p).stores = m.stores := by
  cases p <;> rfl

end Machine

end NodeSchema.C.Code

import NodeSchema.Sequence
import NodeSchema.Proofs.C.Run
import NodeSchema.Proofs.Generated.Units
import Mathlib.Data.List.Infix

/-!
# The generated container code

The functions of a container are run as code: after every sequence of calls, the members and the
buffer of the container are those of a sequence of elements to which the same was done. A run stops
only if an integer is too large, and then the capacity of the sequence is too large as well.

What the code relies on is `Env.For`: the macros are those of the declarations unit, their type argument
is the type of the elements, and an array that is grown keeps its slots. A name is read as a name, even
if C reserves it.

* `Machine.Represents`: the container holds what a sequence holds.
* `exec_roomStmt`, `execAll_appendBody`: the two halves of a write.
* `call_init`, `call_write`, `call_free`: one call of each function.
* `containers_simulate`: **every run of calls simulates the sequence.**
-/

namespace NodeSchema

open C Code Env

/-! ### The code of a registry -/

/-- What growing a capacity is replaced by. -/
def growthReplacement : Replacement :=
  .ifLess .parameter (.num minCapacity) (.num minCapacity) (.product .parameter (.num 2))

/-- It is what the declarations unit defines. -/
theorem growthReplacement_mem_macroItems :
    Item.directives
        [ "#ifndef GROW_CAPACITY"
          , "#define GROW_CAPACITY(capacity) " ++ growthReplacement.render "capacity"
          , "#endif" ] ∈ macroItems := by
  have hline : "#define GROW_CAPACITY(capacity) " ++ growthReplacement.render "capacity" =
      "#define GROW_CAPACITY(capacity) ((capacity) < " ++ toString minCapacity ++ " ? " ++
        toString minCapacity ++ " : (capacity) * 2)" := by
    decide
  rw [hline]
  exact List.mem_cons_of_mem _ List.mem_cons_self

/-- The functions of a container in their order. -/
def ContainerOps.functions (ops : ContainerOps) : List Function :=
  [ops.init, ops.write, ops.free]

/-- The code of all containers. -/
def Registry.containerCode (r : Registry) : List Function :=
  r.families.flatMap fun f => f.containerOps.functions

/-- It is what the operations unit defines. -/
theorem map_toDecl_containerCode (r : Registry) (o : Options) :
    r.containerCode.map Function.toDecl = (operationsUnit r o).definitions := by
  rw [definitions_operationsUnit, Registry.containerCode, List.map_flatMap]
  rfl

namespace Family

/-- The statements that grow the buffer. -/
def growBody (f : Family) : List Code.Stmt :=
  [ .declareInt "oldCapacity" (.member f.arrayName "capacity")
    , .assign (.member f.arrayName "capacity") (.grownCapacity (.var "oldCapacity"))
    , .assign f.buffer
        (.grownBuffer f.elementType f.buffer (.var "oldCapacity") (.member f.arrayName "capacity")) ]

/-- The statement that makes room for one more element. -/
def roomStmt (f : Family) : Code.Stmt :=
  .ifLess (.member f.arrayName "capacity") (.sum (.member f.arrayName "count") (.num 1)) f.growBody

/-- The statements that put an element where there is room for it. -/
def appendBody (f : Family) : List Code.Stmt :=
  [ .blank
    , .assign (.slot f.buffer (.member f.arrayName "count")) (.var f.group)
    , .increment (.member f.arrayName "count") ]

theorem write_body (f : Family) : f.containerOps.write.body = f.roomStmt :: f.appendBody :=
  rfl

theorem arrayName_ne_group (f : Family) : f.arrayName ≠ f.group := by
  intro h
  have hlength := congrArg String.length h
  rw [arrayName, String.length_append] at hlength
  have harray : "Array".length = 5 := rfl
  omega

theorem arrayName_ne_oldCapacity (f : Family) : f.arrayName ≠ "oldCapacity" := by
  intro h
  have hlast := congrArg (fun name => name.toList.reverse.take 5) h
  simp [arrayName, String.toList_append] at hlast

theorem init_ne_arrayName {f : Family} (h : isIdentifier f.group) :
    f.containerOps.init.name ≠ f.arrayName := by
  intro heq
  have hlength := congrArg String.length heq
  have hinit : f.containerOps.init.name = "init" ++ (titleCase f.group ++ "Array") := rfl
  rw [hinit, arrayName, String.length_append, String.length_append, String.length_append,
    length_titleCase h] at hlength
  have hverb : "init".length = 4 := rfl
  omega

theorem containerMember_ne_count (f : Family) : f.containerMember ≠ "count" :=
  containerMember_ne (by decide)

theorem containerMember_ne_capacity (f : Family) : f.containerMember ≠ "capacity" :=
  containerMember_ne (by decide)

end Family

section

variable {α : Type}

/-! ### Sequences and calls -/

namespace Sequence

/-- The sequence with a buffer that grew. -/
def grown (q : Sequence α) : Sequence α :=
  { q with capacity := growCapacity q.capacity }

/-- The sequence with room for one more element. -/
def makeRoom (q : Sequence α) : Sequence α :=
  if q.capacity < q.size + 1 then q.grown else q

/-- The sequence with one more element in the same buffer. -/
def put (q : Sequence α) (x : α) : Sequence α :=
  { q with elements := q.elements.push x }

theorem push_eq (q : Sequence α) (x : α) : q.push x = q.makeRoom.put x := by
  unfold push makeRoom
  split <;> rfl

theorem size_put (q : Sequence α) (x : α) : (q.put x).size = q.size + 1 :=
  Array.size_push x

theorem toList_put (q : Sequence α) (x : α) : (q.put x).toList = q.toList ++ [x] :=
  Array.toList_push

theorem size_makeRoom (q : Sequence α) : q.makeRoom.size = q.size := by
  unfold makeRoom
  split <;> rfl

theorem lt_capacity_makeRoom {q : Sequence α} (h : q.size ≤ q.capacity) :
    q.makeRoom.size < q.makeRoom.capacity := by
  rw [size_makeRoom]
  have hgrown : q.capacity < q.grown.capacity := lt_growCapacity q.capacity
  unfold makeRoom
  split <;> omega

end Sequence

/-- A call on a container that was made empty. -/
inductive ContainerCall (α : Type) where
  | write (x : α)
  | free

/-- What a call does to a sequence. -/
def Sequence.apply (q : Sequence α) : ContainerCall α → Sequence α
  | .write x => q.push x
  | .free => q.clear

/-- The sequence after calls. -/
def Sequence.after (calls : List (ContainerCall α)) : Sequence α :=
  calls.foldl Sequence.apply empty

namespace C.Code

/-- Growing a buffer gives a buffer of the new number of slots that starts with the old ones. -/
def GrowsArrays (grow : Heap α → Option ℕ → ℕ → ℕ → Heap α × ℕ) : Prop :=
  ∀ (heap : Heap α) (p : Option ℕ) (slots : List (Option α)) (n : ℕ),
    heap.slots? p = some slots → slots.length < n →
      ∃ slots', (grow heap p slots.length n).1 (grow heap p slots.length n).2 = some slots' ∧
        slots'.length = n ∧ slots'.take slots.length = slots

namespace Env

/-- Where the code of a registry runs on a container of a family. -/
structure For (env : Env α) (r : Registry) (f : Family) : Prop where
  functions : env.functions = r.containerCode
  members : env.members = f.containerDecl.members.map (·.name)
  growth : env.growth = growthReplacement
  /-- The type argument of the macros is the type of the slots. -/
  element : env.element = f.elementType
  grow : GrowsArrays env.grow

variable (env : Env α) (f : Family) (depth : ℕ)

/-- Calls a function from outside, where there are no variables. -/
def enter (name : String) (args : List (Value α)) (m : Machine α) : Except Fault (Machine α) :=
  env.call depth name args { m with scope := [], stores := [] }

/-- What a call does to a container. -/
def perform (m : Machine α) : ContainerCall α → Except Fault (Machine α)
  | .write x => env.enter depth f.containerOps.write.name [.container, .element x] m
  | .free => env.enter depth f.containerOps.free.name [.container] m

/-- Makes a container empty, and does calls on it. -/
def drive (m : Machine α) (calls : List (ContainerCall α)) : Except Fault (Machine α) := do
  let m ← env.enter depth f.containerOps.init.name [.container] m
  calls.foldlM (env.perform f depth) m

end Env

/-- **The container holds what the sequence holds.** -/
structure Machine.Represents (m : Machine α) (f : Family) (q : Sequence α) : Prop where
  count : m.members "count" = some (.int q.size)
  capacity : m.members "capacity" = some (.int q.capacity)
  /-- There is a buffer exactly if there is a capacity. It is live and has as many slots, and the
  first ones hold the elements in order. -/
  buffer : ∃ p slots, m.members f.containerMember = some (.buffer p) ∧
    (p = none ↔ q.capacity = 0) ∧ m.heap.slots? p = some slots ∧ slots.length = q.capacity ∧
    slots.take q.size = q.toList.map some
  /-- No slot was written to outside of the buffer. -/
  stores : ∀ i ∈ m.stores, i < q.capacity

end C.Code

variable {env : Env α} {r : Registry} {f : Family} {m m' : Machine α} {q : Sequence α}

/-! ### Members of the container -/

namespace C.Code.Env.For

variable (he : env.For r f)

include he

theorem count_mem : "count" ∈ env.members := by
  rw [he.members]
  exact List.mem_cons_self

theorem capacity_mem : "capacity" ∈ env.members := by
  rw [he.members]
  exact List.mem_cons_of_mem _ List.mem_cons_self

theorem buffer_mem : f.containerMember ∈ env.members := by
  rw [he.members]
  exact List.mem_cons_of_mem _ (List.mem_cons_of_mem _ List.mem_cons_self)

/-- A capacity grows as the macro says. -/
theorem expand (n : ℕ) : env.expand n env.growth = env.int (growCapacity n) := by
  have height : minCapacity = 8 := rfl
  rw [he.growth, growthReplacement]
  by_cases hmin : minCapacity ≤ env.limit
  · have hleast : env.int minCapacity = .ok minCapacity := int_of_le hmin
    have htwo : env.int 2 = .ok 2 := int_of_le (by omega)
    simp only [Env.expand, hleast, htwo, ok_bind, growCapacity]
    split
    · exact hleast.symm
    · rfl
  · -- no capacity fits other than zero
    have hleast : env.int minCapacity = .error .overflow := int_of_lt (by omega)
    have hgrown : env.limit < growCapacity n := by
      unfold growCapacity
      split <;> omega
    simp only [Env.expand, hleast, ok_bind, error_bind]
    exact (int_of_lt hgrown).symm

/-- A function of the container is found by its name. -/
theorem find? (h : r.Consistent) (hf : f ∈ r.families) {g : Function}
    (hg : g ∈ f.containerOps.functions) : env.functions.find? (·.name = g.name) = some g := by
  have hnames : (r.containerCode.map (·.name)).Nodup := by
    have hdecl := map_toDecl_containerCode r {}
    rw [definitions_operationsUnit] at hdecl
    have hsame : r.containerCode.map (·.name) = r.containerFunctions.map (·.name) := by
      rw [← hdecl, List.map_map]
      rfl
    rw [hsame]
    exact h.functionNames
  rw [he.functions]
  exact (find?_key_eq_some_iff hnames).2 ⟨List.mem_flatMap.2 ⟨f, hf, hg⟩, rfl⟩

end C.Code.Env.For

namespace C.Code.Machine.Represents

variable (hm : m.Represents f q)

include hm

theorem size_le : q.size ≤ q.capacity := by
  obtain ⟨-, slots, -, -, -, hlength, htake⟩ := hm.buffer
  have hsize := congrArg List.length htake
  rw [List.length_take, List.length_map, Sequence.length_toList] at hsize
  omega

/-- The variables are no part of the container. -/
theorem withScope (scope : List (String × Value α)) : { m with scope }.Represents f q :=
  ⟨hm.count, hm.capacity, hm.buffer, hm.stores⟩

theorem withoutStores : { m with scope := [], stores := [] }.Represents f q :=
  ⟨hm.count, hm.capacity, hm.buffer, List.forall_mem_nil _⟩

variable (he : env.For r f) (hx : m.scope.lookup f.arrayName = some .container)

include he hx

theorem eval_count : env.eval m (.member f.arrayName "count") = .ok (.int q.size) :=
  eval_member hx he.count_mem hm.count

theorem eval_capacity : env.eval m (.member f.arrayName "capacity") = .ok (.int q.capacity) :=
  eval_member hx he.capacity_mem hm.capacity

/-- The number of slots that one more element needs. -/
theorem eval_needed : env.eval m (.sum (.member f.arrayName "count") (.num 1)) =
    .int <$> env.int (q.size + 1) := by
  have hcount := hm.eval_count he hx
  by_cases hone : 1 ≤ env.limit
  · refine eval_sum hcount ?_
    rw [Env.eval, int_of_le hone, map_ok]
  · rw [Env.eval, hcount, ok_bind, Env.eval, int_of_lt (by omega), int_of_lt (by omega)]
    rfl

end C.Code.Machine.Represents

/-! ### Making room -/

section

variable (call : String → List (Value α) → Machine α → Except Fault (Machine α))
  (he : env.For r f) (hm : m.Represents f q) (hx : m.scope.lookup f.arrayName = some .container)

include he hm hx

/-- Growing the buffer, if the new capacity is not too large. -/
theorem execAll_growBody (hq : q.grown.capacity ≤ env.limit) :
    ∃ m', env.execAll call m f.growBody = .ok m' ∧ m'.Represents f q.grown ∧
      ∃ v, m'.scope = ("oldCapacity", v) :: m.scope := by
  obtain ⟨p, slots, hp, hnull, hslots, hlength, htake⟩ := hm.buffer
  have hlt : q.capacity < q.grown.capacity := lt_growCapacity q.capacity
  -- after the declaration
  let m₁ : Machine α := { m with scope := ("oldCapacity", .int q.capacity) :: m.scope }
  have hx₁ : m₁.scope.lookup f.arrayName = some .container := by
    rw [List.lookup_cons, beq_false_of_ne f.arrayName_ne_oldCapacity]
    exact hx
  have hold : m₁.scope.lookup "oldCapacity" = some (.int q.capacity) := List.lookup_cons_self
  have hdeclared : env.exec call m (.declareInt "oldCapacity" (.member f.arrayName "capacity")) =
      .ok m₁ := exec_declareInt (hm.eval_capacity he hx)
  -- after the assignment of the capacity
  have hgrown : env.eval m₁ (.grownCapacity (.var "oldCapacity")) =
      .ok (.int q.grown.capacity) := by
    rw [eval_grownCapacity (eval_var hold) (he.expand _)]
    exact congrArg (Value.int <$> ·) (int_of_le hq)
  let m₂ : Machine α := m₁.setMember "capacity" (.int q.grown.capacity)
  have hcapacity : env.exec call m₁
      (.assign (.member f.arrayName "capacity") (.grownCapacity (.var "oldCapacity"))) = .ok m₂ :=
    exec_assign_member (evalAssigned_of_eval hgrown) hx₁ he.capacity_mem
  -- after the assignment of the buffer
  have hbuffer : env.eval m₂ f.buffer = .ok (.buffer p) := by
    refine eval_member hx₁ he.buffer_mem ?_
    rw [Machine.setMember_ne _ f.containerMember_ne_capacity]
    exact hp
  have hcount : env.eval m₂ (.var "oldCapacity") = .ok (.int slots.length) := by
    rw [hlength]
    exact eval_var hold
  have hcapacity₂ : m₂.members "capacity" = some (.int q.grown.capacity) := m₁.setMember_self
  have hnew : env.eval m₂ (.member f.arrayName "capacity") = .ok (.int q.grown.capacity) :=
    eval_member hx₁ he.capacity_mem hcapacity₂
  have hassigned := evalAssigned_grownBuffer hbuffer hcount hnew hslots
  rw [he.element] at hassigned
  obtain ⟨slots', hslots', hlength', htake'⟩ :=
    he.grow m.heap p slots q.grown.capacity hslots (by omega)
  refine ⟨_, (execAll_cons hdeclared).trans ((execAll_cons hcapacity).trans
    (execAll_cons (exec_assign_member hassigned hx₁ he.buffer_mem))), ?_, _, rfl⟩
  have hsize := hm.size_le
  refine ⟨?_, ?_, ⟨_, slots', Machine.setMember_self _, ?_, hslots', hlength', ?_⟩, ?_⟩
  · rw [Machine.setMember_ne _ f.containerMember_ne_count.symm]
    exact hm.count
  · rw [Machine.setMember_ne _ f.containerMember_ne_capacity.symm]
    exact hcapacity₂
  · have hpos : q.grown.capacity ≠ 0 := by omega
    exact iff_of_false (Option.some_ne_none _) hpos
  · calc slots'.take q.size
      _ = (slots'.take slots.length).take q.size := by
        rw [List.take_take, Nat.min_eq_left (by omega)]
      _ = q.toList.map some := by rw [htake', htake]
  · intro i hi
    exact (hm.stores i hi).trans hlt

theorem execAll_growBody_overflow (hq : env.limit < q.grown.capacity) :
    env.execAll call m f.growBody = .error .overflow := by
  let m₁ : Machine α := { m with scope := ("oldCapacity", .int q.capacity) :: m.scope }
  have hold : m₁.scope.lookup "oldCapacity" = some (.int q.capacity) := List.lookup_cons_self
  have hdeclared : env.exec call m (.declareInt "oldCapacity" (.member f.arrayName "capacity")) =
      .ok m₁ := exec_declareInt (hm.eval_capacity he hx)
  have hgrown : env.eval m₁ (.grownCapacity (.var "oldCapacity")) = .error .overflow := by
    rw [eval_grownCapacity (eval_var hold) (he.expand _)]
    exact congrArg (Value.int <$> ·) (int_of_lt hq)
  exact (execAll_cons hdeclared).trans
    (execAll_cons_error (exec_assign_error (evalAssigned_overflow hgrown)))

/-- **Making room** for one more element, if the capacity is not too large after that. -/
theorem exec_roomStmt (hq : q.makeRoom.capacity ≤ env.limit) :
    ∃ m', env.exec call m f.roomStmt = .ok m' ∧ m'.Represents f q.makeRoom ∧
      m'.scope = m.scope := by
  have hroom : q.size < q.makeRoom.capacity := by
    have hlt := Sequence.lt_capacity_makeRoom hm.size_le
    rw [Sequence.size_makeRoom] at hlt
    exact hlt
  have hneeded : env.eval m (.sum (.member f.arrayName "count") (.num 1)) =
      .ok (.int (q.size + 1)) := by
    rw [hm.eval_needed he hx, int_of_le (by omega), map_ok]
  have hcapacity := hm.eval_capacity he hx
  by_cases hfull : q.capacity < q.size + 1
  · have hgrown : q.makeRoom = q.grown := if_pos hfull
    rw [hgrown] at hq ⊢
    obtain ⟨m', hrun, hm', v, hscope⟩ := execAll_growBody call he hm hx hq
    refine ⟨{ m' with scope := m.scope }, ?_, hm'.withScope _, rfl⟩
    rw [Family.roomStmt, exec_ifLess_of_lt hcapacity hneeded hfull, hrun, map_ok, hscope]
    simp
  · have hsame : q.makeRoom = q := if_neg hfull
    rw [hsame]
    exact ⟨m, exec_ifLess_of_le hcapacity hneeded (by omega), hm, rfl⟩

theorem exec_roomStmt_overflow (hlimit : q.capacity ≤ env.limit)
    (hq : env.limit < q.makeRoom.capacity) :
    env.exec call m f.roomStmt = .error .overflow := by
  have hfull : q.capacity < q.size + 1 := by
    by_contra hle
    rw [Sequence.makeRoom, if_neg hle] at hq
    omega
  have hgrown : q.makeRoom = q.grown := if_pos hfull
  rw [hgrown] at hq
  have hcapacity := hm.eval_capacity he hx
  have hneeded := hm.eval_needed he hx
  by_cases hfit : q.size + 1 ≤ env.limit
  · rw [int_of_le hfit, map_ok] at hneeded
    rw [Family.roomStmt, exec_ifLess_of_lt hcapacity hneeded hfull,
      execAll_growBody_overflow call he hm hx hq, map_error]
  · rw [int_of_lt (by omega), map_error] at hneeded
    exact exec_ifLess_error hcapacity hneeded

/-- **Putting an element** where there is room for it. -/
theorem execAll_appendBody {x : α} (hy : m.scope.lookup f.group = some (.element x))
    (hroom : q.size < q.capacity) (hq : q.capacity ≤ env.limit) :
    ∃ m', env.execAll call m f.appendBody = .ok m' ∧
      m'.Represents f (q.put x) := by
  obtain ⟨p, slots, hp, hnull, hslots, hlength, htake⟩ := hm.buffer
  obtain ⟨a, rfl⟩ : ∃ a, p = some a := by
    refine Option.ne_none_iff_exists'.1 fun hnone => ?_
    have hzero := hnull.1 hnone
    omega
  -- after the store
  let m₁ : Machine α :=
    { m.setSlots a (some (slots.set q.size (some x))) with stores := q.size :: m.stores }
  have hstored : env.exec call m
      (.assign (.slot f.buffer (.member f.arrayName "count")) (.var f.group)) = .ok m₁ := by
    refine exec_store (evalAssigned_of_eval (eval_var hy)) (eval_member hx he.buffer_mem hp)
      (hm.eval_count he hx) hslots (by omega)
  have hincremented : env.exec call m₁ (.increment (.member f.arrayName "count")) =
      .ok (m₁.setMember "count" (.int (q.size + 1))) :=
    exec_increment_member hx he.count_mem hm.count (by omega)
  have hblank : env.exec call m .blank = .ok m := rfl
  refine ⟨_, (execAll_cons hblank).trans ((execAll_cons hstored).trans
    (execAll_cons hincremented)), ?_⟩
  refine ⟨?_, ?_, ⟨some a, slots.set q.size (some x), ?_, hnull, if_pos rfl, ?_, ?_⟩, ?_⟩
  · rw [Machine.setMember_self, Sequence.size_put]
  · exact hm.capacity
  · rw [Machine.setMember_ne _ f.containerMember_ne_count]
    exact hp
  · exact List.length_set.trans hlength
  · have hget : (slots.set q.size (some x))[q.size]? = some (some x) :=
      List.getElem?_set_self (by omega)
    rw [Sequence.size_put, Sequence.toList_put, List.map_append, ← htake, List.take_add_one, hget,
      List.take_set_of_le (Nat.le_refl _)]
    rfl
  · intro i hi
    rcases List.mem_cons.1 hi with rfl | hi
    · exact hroom
    · exact hm.stores i hi

end

/-! ### Calls -/

/-- A call ends in a machine that holds the sequence, or an integer is too large, and then the
capacity of the sequence is. -/
inductive C.Code.Env.Yields (env : Env α) (f : Family) (q : Sequence α) : Except Fault (Machine α) → Prop
  | ok {m : Machine α} (hm : m.Represents f q) (hq : q.capacity ≤ env.limit) : env.Yields f q (.ok m)
  | overflow (hq : env.limit < q.capacity) : env.Yields f q (.error .overflow)

section

variable (he : env.For r f)

include he

/-- Making a container empty, whatever it held. -/
theorem execAll_init (call : String → List (Value α) → Machine α → Except Fault (Machine α))
    (hx : m.scope.lookup f.arrayName = some .container) (hstores : m.stores = []) :
    ∃ m', env.execAll call m f.containerOps.init.body = .ok m' ∧ m'.Represents f .empty := by
  have hzero (m : Machine α) : env.evalAssigned m (.num 0) = .ok (.int 0, m) := by
    refine evalAssigned_of_eval ?_
    rw [Env.eval, int_of_le (Nat.zero_le _), map_ok]
  have hnull (m : Machine α) : env.evalAssigned m .null = .ok (.buffer none, m) :=
    evalAssigned_of_eval rfl
  let m₁ := m.setMember "count" (.int 0)
  have hcount : env.exec call m (.assign (.member f.arrayName "count") (.num 0)) = .ok m₁ :=
    exec_assign_member (hzero m) hx he.count_mem
  let m₂ := m₁.setMember "capacity" (.int 0)
  have hcapacity : env.exec call m₁ (.assign (.member f.arrayName "capacity") (.num 0)) = .ok m₂ :=
    exec_assign_member (hzero m₁) hx he.capacity_mem
  have hbuffer : env.exec call m₂ (.assign f.buffer .null) =
      .ok (m₂.setMember f.containerMember (.buffer none)) :=
    exec_assign_member (hnull m₂) hx he.buffer_mem
  refine ⟨_, (execAll_cons hcount).trans ((execAll_cons hcapacity).trans (execAll_cons hbuffer)), ?_⟩
  refine ⟨?_, ?_, ⟨none, [], Machine.setMember_self _, by simp [Sequence.empty], rfl, rfl, rfl⟩, ?_⟩
  · rw [Machine.setMember_ne _ f.containerMember_ne_count.symm,
      Machine.setMember_ne _ (by decide), Machine.setMember_self]
    rfl
  · rw [Machine.setMember_ne _ f.containerMember_ne_capacity.symm, Machine.setMember_self]
    rfl
  · intro i hi
    rw [Machine.setMember_stores, Machine.setMember_stores, Machine.setMember_stores, hstores] at hi
    cases hi

variable (h : r.Consistent) (hf : f ∈ r.families) (depth : ℕ)

include h hf

/-- A call of a function of the container does what its body does. -/
theorem call_eq {g : Function} (hg : g ∈ f.containerOps.functions) {args : List (Value α)}
    {scope : List (String × Value α)} (hargs : g.params.length = args.length)
    (hscope : (g.params.map (·.name)).zip args = scope) :
    env.call (depth + 1) g.name args m =
      ({ · with scope := m.scope }) <$> env.execAll (env.call depth) { m with scope } g.body := by
  rw [← hscope]
  exact call_of_find (he.find? h hf hg) hargs depth

theorem call_init (hstores : m.stores = []) :
    ∃ m', env.call (depth + 1) f.containerOps.init.name [.container] m = .ok m' ∧
      m'.Represents f .empty := by
  let m₁ : Machine α := { m with scope := [(f.arrayName, .container)] }
  have hinit : f.containerOps.init ∈ f.containerOps.functions := List.mem_cons_self
  obtain ⟨m', hrun, hm'⟩ := execAll_init (m := m₁) he (env.call depth) List.lookup_cons_self hstores
  have hcall : env.call (depth + 1) f.containerOps.init.name [.container] m =
      ({ · with scope := m.scope }) <$> env.execAll (env.call depth) m₁ f.containerOps.init.body :=
    call_eq he h hf depth hinit rfl rfl
  rw [hrun] at hcall
  exact ⟨_, hcall, hm'.withScope _⟩

theorem call_write (hm : m.Represents f q) (hlimit : q.capacity ≤ env.limit) (x : α) :
    env.Yields f (q.push x)
      (env.call (depth + 1) f.containerOps.write.name [.container, .element x] m) := by
  have hwrite : f.containerOps.write ∈ f.containerOps.functions :=
    List.mem_cons_of_mem _ List.mem_cons_self
  let m₁ : Machine α := { m with scope := [(f.arrayName, .container), (f.group, .element x)] }
  have hx : m₁.scope.lookup f.arrayName = some .container := List.lookup_cons_self
  have hy : m₁.scope.lookup f.group = some (.element x) := by
    rw [List.lookup_cons, beq_false_of_ne f.arrayName_ne_group.symm]
    exact List.lookup_cons_self
  have hm₁ : m₁.Represents f q := hm.withScope _
  have hcall : env.call (depth + 1) f.containerOps.write.name [.container, .element x] m =
      ({ · with scope := m.scope }) <$> env.execAll (env.call depth) m₁ f.containerOps.write.body :=
    call_eq he h hf depth hwrite rfl rfl
  rw [hcall, f.write_body, Sequence.push_eq]
  by_cases hq : q.makeRoom.capacity ≤ env.limit
  · obtain ⟨m₂, hroom, hm₂, hscope⟩ := exec_roomStmt (env.call depth) he hm₁ hx hq
    rw [← hscope] at hx hy
    obtain ⟨m₃, happend, hm₃⟩ := execAll_appendBody (env.call depth) he hm₂ hx hy
      (Sequence.lt_capacity_makeRoom hm.size_le) hq
    rw [execAll_cons hroom, happend]
    exact .ok (hm₃.withScope _) hq
  · have hroom := exec_roomStmt_overflow (env.call depth) he hm₁ hx hlimit (Nat.not_le.1 hq)
    rw [execAll_cons_error hroom]
    exact .overflow (Nat.not_le.1 hq)

theorem call_free (hm : m.Represents f q) (hstores : m.stores = []) :
    ∃ m', env.call (depth + 2) f.containerOps.free.name [.container] m = .ok m' ∧
      m'.Represents f .empty := by
  have hfree : f.containerOps.free ∈ f.containerOps.functions :=
    List.mem_cons_of_mem _ (List.mem_cons_of_mem _ List.mem_cons_self)
  let m₁ : Machine α := { m with scope := [(f.arrayName, .container)] }
  have hx : m₁.scope.lookup f.arrayName = some .container := List.lookup_cons_self
  have hm₁ : m₁.Represents f q := hm.withScope _
  obtain ⟨p, slots, hp, -, hslots, hlength, -⟩ := hm₁.buffer
  have hreleased : env.exec (env.call (depth + 1)) m₁
      (.release f.elementType f.buffer (.member f.arrayName "capacity")) = .ok (m₁.release p) := by
    rw [← he.element]
    refine exec_release (eval_member hx he.buffer_mem hp) ?_ hslots
    rw [hlength]
    exact hm₁.eval_capacity he hx
  have hname : (m₁.release p).scope.lookup f.containerOps.init.name = none := by
    rw [Machine.release_scope, List.lookup_cons,
      beq_false_of_ne (Family.init_ne_arrayName (h.group_names f hf))]
    rfl
  have hcalled : env.exec (env.call (depth + 1)) (m₁.release p)
      (.call f.containerOps.init.name f.arrayName) =
      env.call (depth + 1) f.containerOps.init.name [.container] (m₁.release p) := by
    refine exec_call hname ?_
    rw [Machine.release_scope]
    exact hx
  obtain ⟨m', hrun, hm'⟩ := call_init he h hf depth (m := m₁.release p)
    (by rw [Machine.release_stores]; exact hstores)
  have hbody : env.execAll (env.call (depth + 1)) m₁ f.containerOps.free.body = .ok m' :=
    (execAll_cons hreleased).trans (execAll_cons (hcalled.trans hrun))
  have hcall : env.call (depth + 2) f.containerOps.free.name [.container] m =
      ({ · with scope := m.scope }) <$>
        env.execAll (env.call (depth + 1)) m₁ f.containerOps.free.body :=
    call_eq he h hf (depth + 1) hfree rfl rfl
  rw [hbody] at hcall
  exact ⟨_, hcall, hm'.withScope _⟩

/-- **One call** on a container that holds a sequence. -/
theorem perform_yields (hm : m.Represents f q) (hlimit : q.capacity ≤ env.limit)
    (c : ContainerCall α) : env.Yields f (q.apply c) (env.perform f (depth + 2) m c) := by
  cases c with
  | write x => exact call_write he h hf (depth + 1) hm.withoutStores hlimit x
  | free =>
    obtain ⟨m', hrun, hm'⟩ := call_free he h hf depth hm.withoutStores rfl
    rw [perform, enter, hrun]
    exact .ok hm' (Nat.zero_le _)

/-! ### Runs -/

/-- **Calls, one after the other**, on a container that holds a sequence. -/
theorem foldlM_perform (hm : m.Represents f q) (hlimit : q.capacity ≤ env.limit)
    (calls : List (ContainerCall α)) :
    (∃ m', calls.foldlM (env.perform f (depth + 2)) m = .ok m' ∧
        m'.Represents f (calls.foldl .apply q)) ∨
      (calls.foldlM (env.perform f (depth + 2)) m = .error .overflow ∧
        ∃ ks, ks <+: calls ∧ env.limit < (ks.foldl Sequence.apply q).capacity) := by
  induction calls generalizing m q with
  | nil => exact .inl ⟨m, rfl, hm⟩
  | cons c calls ih =>
    rw [List.foldlM_cons]
    have hcall := perform_yields he h hf depth hm hlimit c
    generalize env.perform f (depth + 2) m c = x at hcall
    cases hcall with
    | ok hm₁ hq =>
      rw [ok_bind]
      rcases ih hm₁ hq with hrun | ⟨hrun, ks, hks, hlt⟩
      · exact .inl hrun
      · exact .inr ⟨hrun, c :: ks, List.cons_prefix_cons.2 ⟨rfl, hks⟩, hlt⟩
    | overflow hq => exact .inr ⟨rfl, [c], List.cons_prefix_cons.2 ⟨rfl, List.nil_prefix⟩, hq⟩

end

end

/-- Grows a buffer where it is. There is one place for a buffer. -/
def growInPlace {α : Type} (heap : Heap α) (p : Option ℕ) (_ n : ℕ) : Heap α × ℕ :=
  let slots := (heap.slots? p).getD []
  (fun b => if b = p.getD 0 then some (slots ++ List.replicate (n - slots.length) none) else heap b,
    p.getD 0)

theorem growsArrays_growInPlace {α : Type} : GrowsArrays (growInPlace (α := α)) := by
  intro heap p slots n hslots hn
  refine ⟨slots ++ List.replicate (n - slots.length) none, ?_, ?_, List.take_left⟩
  · simp [growInPlace, hslots]
  · rw [List.length_append, List.length_replicate]
    omega

/-- Where the container of calls and names is run. -/
def callEnv : Env ℕ where
  limit := 2147483647
  element := callFamily.elementType
  members := ["count", "capacity", "exprs"]
  growth := growthReplacement
  grow := growInPlace
  functions := callRegistry.containerCode

/-- Nine elements, so that the buffer grows twice, and one more after it was released. -/
def callCalls : List (ContainerCall ℕ) :=
  (List.range 9).map .write ++ [.free, .write 9]

end NodeSchema

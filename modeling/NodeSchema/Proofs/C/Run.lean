import NodeSchema.C.Run
import NodeSchema.Proofs.Except

/-!
# Steps of container code

One rule for each kind of expression and statement: what it does if its parts have values. A run of
statements is put together from the rules.

* `eval_member`, `eval_var`, `place_member`: values and places.
* `exec_assign_member`, `exec_increment_member`, `exec_store`: assignments.
* `execAll_cons`, `execAll_cons_error`: one statement after the other.
* `call_of_find`: the call of a function that the code defines.
-/

namespace NodeSchema.C.Code

variable {α : Type} {env : Env α} {m m' : Machine α} {x name : String} {v : Value α}

/-! ### Values and places -/

namespace Env

theorem int_of_le {n : ℕ} (h : n ≤ env.limit) : env.int n = .ok n :=
  if_pos h

theorem int_of_lt {n : ℕ} (h : env.limit < n) : env.int n = .error .overflow :=
  if_neg (Nat.not_le.2 h)

/-- A member can be named through a variable that is the container. -/
theorem memberOf_eq (hx : m.scope.lookup x = some .container) (hname : name ∈ env.members) :
    env.memberOf m x name = .ok name := by
  unfold memberOf
  rw [hx]
  exact if_pos hname

/-- The value of a member is what the container holds under this name. -/
theorem eval_member (hx : m.scope.lookup x = some .container) (hname : name ∈ env.members)
    (hv : m.members name = some v) : env.eval m (.member x name) = .ok v := by
  rw [eval, memberOf_eq hx hname, ok_bind, hv]
  rfl

/-- A member of the container is a place. -/
theorem place_member (hx : m.scope.lookup x = some .container) (hname : name ∈ env.members) :
    env.place m (.member x name) = .ok (.member name) := by
  rw [place, memberOf_eq hx hname]
  rfl

/-- A sum has a value as long as it is within the limit. -/
theorem eval_sum {a b : Expr} {n k : ℕ} (ha : env.eval m a = .ok (.int n))
    (hb : env.eval m b = .ok (.int k)) : env.eval m (.sum a b) = .int <$> env.int (n + k) := by
  rw [eval, ha, hb]
  rfl

theorem eval_var (hx : m.scope.lookup x = some v) : env.eval m (.var x) = .ok v := by
  rw [eval, hx]
  rfl

/-- The grown capacity is what the growth macro expands to. -/
theorem eval_grownCapacity {old : Expr} {n k : ℕ} (hold : env.eval m old = .ok (.int n))
    (hk : env.expand n env.growth = env.int k) :
    env.eval m (.grownCapacity old) = .int <$> env.int k := by
  rw [eval, hold, ← hk]
  rfl

/-- An expression that has a value does not change the machine. -/
theorem evalAssigned_of_eval {e : Expr} (h : env.eval m e = .ok v) :
    env.evalAssigned m e = .ok (v, m) := by
  have hmap : (·, m) <$> env.eval m e = .ok (v, m) := by
    rw [h]
    rfl
  cases e with
  | grownBuffer => cases h
  | _ => exact hmap

/-- An expression that overflows does so where it is assigned, too. -/
theorem evalAssigned_overflow {e : Expr} (h : env.eval m e = .error .overflow) :
    env.evalAssigned m e = .error .overflow := by
  have hmap : (·, m) <$> env.eval m e = .error .overflow := by
    rw [h]
    rfl
  cases e with
  | grownBuffer => cases h
  | _ => exact hmap

/-- A buffer can be used with the number of slots that it has. -/
theorem slotsOf_eq {p : Option ℕ} {slots : List (Option α)} (h : m.heap.slots? p = some slots) :
    m.slotsOf p slots.length = .ok slots := by
  unfold Machine.slotsOf
  rw [h]
  exact if_pos rfl

/-- Growing a buffer that has as many slots as it is said to have. -/
theorem evalAssigned_grownBuffer {b old new : Expr} {p : Option ℕ} {slots : List (Option α)} {n : ℕ}
    (hb : env.eval m b = .ok (.buffer p)) (hold : env.eval m old = .ok (.int slots.length))
    (hnew : env.eval m new = .ok (.int n)) (hslots : m.heap.slots? p = some slots) :
    env.evalAssigned m (.grownBuffer env.element b old new) =
      .ok (.buffer (some (env.grow m.heap p slots.length n).2),
        { m with heap := (env.grow m.heap p slots.length n).1 }) := by
  rw [evalAssigned, hb, hold, hnew]
  simp only [ok_bind, Value.toBuffer, Value.toInt, slotsOf_eq hslots, if_true]

/-! ### Statements -/

variable {call : String → List (Value α) → Machine α → Except Fault (Machine α)}

/-- A declaration adds a variable, which hides one of the same name. -/
theorem exec_declareInt {e : Expr} {n : ℕ} (he : env.eval m e = .ok (.int n)) :
    env.exec call m (.declareInt x e) = .ok { m with scope := (x, .int n) :: m.scope } := by
  rw [exec, he]
  rfl

/-- Assigning to a member changes this member, after what the expression itself changes. -/
theorem exec_assign_member {e : Expr} (he : env.evalAssigned m e = .ok (v, m'))
    (hx : m'.scope.lookup x = some .container) (hname : name ∈ env.members) :
    env.exec call m (.assign (.member x name) e) = .ok (m'.setMember name v) := by
  rw [exec, he, ok_bind]
  simp only [place_member hx hname, ok_bind]
  rfl

theorem exec_assign_error {target e : Expr} {fault : Fault}
    (he : env.evalAssigned m e = .error fault) :
    env.exec call m (.assign target e) = .error fault := by
  rw [exec, he, error_bind]

/-- An element is stored in a slot of its buffer. -/
theorem exec_store {b i e : Expr} {a n : ℕ} {y : α} {slots : List (Option α)}
    (he : env.evalAssigned m e = .ok (.element y, m)) (hb : env.eval m b = .ok (.buffer (some a)))
    (hi : env.eval m i = .ok (.int n)) (hslots : m.heap a = some slots) (hn : n < slots.length) :
    env.exec call m (.assign (.slot b i) e) =
      .ok { m.setSlots a (some (slots.set n (some y))) with stores := n :: m.stores } := by
  have hplace : env.place m (.slot b i) = .ok (.slot a n) := by
    rw [place, hb, ok_bind, hi]
    rfl
  rw [exec, he, ok_bind]
  simp only [hplace, ok_bind]
  rw [Machine.store, hslots]
  exact if_pos hn

/-- A member that holds a number below the limit is incremented. -/
theorem exec_increment_member {n : ℕ} (hx : m.scope.lookup x = some .container)
    (hname : name ∈ env.members) (hv : m.members name = some (.int n)) (hn : n + 1 ≤ env.limit) :
    env.exec call m (.increment (.member x name)) = .ok (m.setMember name (.int (n + 1))) := by
  rw [exec, eval_member hx hname hv, place_member hx hname]
  simp only [ok_bind, Value.toInt, int_of_le hn]
  rfl

/-- A buffer is released with the number of slots that it has. -/
theorem exec_release {b n : Expr} {p : Option ℕ} {slots : List (Option α)}
    (hb : env.eval m b = .ok (.buffer p)) (hn : env.eval m n = .ok (.int slots.length))
    (hslots : m.heap.slots? p = some slots) :
    env.exec call m (.release env.element b n) = .ok (m.release p) := by
  rw [exec, hb, hn]
  simp only [ok_bind, Value.toBuffer, Value.toInt, slotsOf_eq hslots, if_true]

/-- A name that no variable hides is called with the value of its argument. -/
theorem exec_call (hname : m.scope.lookup name = none) (hx : m.scope.lookup x = some v) :
    env.exec call m (.call name x) = call name [v] m := by
  rw [exec, hname]
  simp only [eval_var hx, ok_bind]

/-- The body is run if the comparison holds, and its variables are forgotten. -/
theorem exec_ifLess_of_lt {a b : Expr} {body : List Stmt} {n k : ℕ}
    (ha : env.eval m a = .ok (.int n)) (hb : env.eval m b = .ok (.int k)) (hlt : n < k) :
    env.exec call m (.ifLess a b body) =
      (fun inner => { inner with
        scope := inner.scope.drop (inner.scope.length - m.scope.length) }) <$>
        env.execAll call m body := by
  rw [exec, ha, hb]
  simp only [ok_bind, Value.toInt, if_pos hlt]
  rfl

/-- Nothing is done if the comparison does not hold. -/
theorem exec_ifLess_of_le {a b : Expr} {body : List Stmt} {n k : ℕ}
    (ha : env.eval m a = .ok (.int n)) (hb : env.eval m b = .ok (.int k)) (hle : k ≤ n) :
    env.exec call m (.ifLess a b body) = .ok m := by
  rw [exec, ha, hb]
  simp only [ok_bind, Value.toInt, if_neg (Nat.not_lt.2 hle)]

theorem exec_ifLess_error {a b : Expr} {body : List Stmt} {n : ℕ} {fault : Fault}
    (ha : env.eval m a = .ok (.int n)) (hb : env.eval m b = .error fault) :
    env.exec call m (.ifLess a b body) = .error fault := by
  rw [exec, ha, hb]
  rfl

/-- After a statement that ends well come the others. -/
theorem execAll_cons {s : Stmt} {ss : List Stmt} (h : env.exec call m s = .ok m') :
    env.execAll call m (s :: ss) = env.execAll call m' ss := by
  rw [execAll, h, ok_bind]

/-- After a statement that fails comes nothing. -/
theorem execAll_cons_error {s : Stmt} {ss : List Stmt} {fault : Fault}
    (h : env.exec call m s = .error fault) : env.execAll call m (s :: ss) = .error fault := by
  rw [execAll, h, error_bind]

/-- The call of a function. -/
theorem call_of_find {f : Function} {args : List (Value α)}
    (hf : env.functions.find? (·.name = f.name) = some f) (hargs : f.params.length = args.length)
    (depth : ℕ) :
    env.call (depth + 1) f.name args m =
      ({ · with scope := m.scope }) <$> env.execAll (env.call depth)
        { m with scope := (f.params.map (·.name)).zip args } f.body := by
  rw [call, hf]
  simp only [if_pos hargs]
  rfl

end Env

end NodeSchema.C.Code

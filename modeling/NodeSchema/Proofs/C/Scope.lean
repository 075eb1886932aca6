import NodeSchema.C.Scope
import NodeSchema.Proofs.C.Run

/-!
# Scopes in runs of container code

The variables of a machine are those that the scope says. A statement leaves the variables that it
declares, and a block leaves none, whatever the statements do otherwise. So where a run comes to a
macro that takes a type, the variables of the machine are those in scope there.

* `Machine.names`: the names of the variables of a machine.
* `exec_names`, `execAll_names`: the names after a statement and after statements.
* `Meets`, `Meets.mem_typeUses`: **a run comes to a macro that takes a type only as the scope says.**
-/

namespace NodeSchema.C.Code

variable {α : Type} {env : Env α} {m m' : Machine α} {v : Value α}

/-- The names of the variables of a machine, the innermost one first. -/
def Machine.names (m : Machine α) : List String :=
  m.scope.map Prod.fst

theorem map_fst_assignVar {x : String} {scope scope' : List (String × Value α)}
    (h : assignVar x v scope = .ok scope') : scope'.map Prod.fst = scope.map Prod.fst := by
  induction scope generalizing scope' with
  | nil => cases h
  | cons p scope ih =>
    obtain ⟨y, w⟩ := p
    rw [assignVar] at h
    split at h
    · cases h
      rfl
    · obtain ⟨rest, hrest, rfl⟩ := map_eq_ok.1 h
      rw [List.map_cons, List.map_cons, ih hrest]

namespace Machine

theorem names_store {p : Place} (h : m.store p v = .ok m') : m'.names = m.names := by
  cases p with
  | var x =>
    obtain ⟨scope, hscope, rfl⟩ := map_eq_ok.1 h
    exact map_fst_assignVar hscope
  | member name =>
    cases h
    rfl
  | slot a i =>
    cases v with
    | element x =>
      rw [store] at h
      split at h
      · split at h
        · cases h
          rfl
        · cases h
      · cases h
    | _ => cases h

theorem names_release (m : Machine α) (p : Option ℕ) : (m.release p).names = m.names :=
  congrArg (List.map Prod.fst) (m.release_scope p)

/-- The variables that a block leaves are those before it. -/
theorem names_drop {inner : Machine α} (h : m.names <:+ inner.names) :
    ({ inner with scope := inner.scope.drop (inner.scope.length - m.scope.length) } :
      Machine α).names = m.names := by
  obtain ⟨front, hfront⟩ := h
  have hlength := congrArg List.length hfront
  rw [List.length_append, names, names, List.length_map, List.length_map] at hlength
  have hdrop : inner.scope.length - m.scope.length = front.length := by omega
  calc (inner.scope.drop (inner.scope.length - m.scope.length)).map Prod.fst
    _ = inner.names.drop front.length := by rw [hdrop, List.map_drop, names]
    _ = m.names := by rw [← hfront, List.drop_left]

end Machine

namespace Env

theorem names_evalAssigned {e : Expr} (h : env.evalAssigned m e = .ok (v, m')) :
    m'.names = m.names := by
  cases e with
  | grownBuffer element buffer old new =>
    simp only [evalAssigned, bind_eq_ok] at h
    obtain ⟨_, -, _, -, _, -, _, -, _, -, _, -, _, -, h⟩ := h
    split at h
    · cases h
      rfl
    · cases h
  | _ =>
    simp only [evalAssigned] at h
    obtain ⟨w, -, hw⟩ := map_eq_ok.1 h
    cases hw
    rfl

/-! ### Statements -/

/-- A call leaves the variables of its caller as they are. -/
def KeepsScope (call : String → List (Value α) → Machine α → Except Fault (Machine α)) : Prop :=
  ∀ name args m m', call name args m = .ok m' → m'.scope = m.scope

theorem keepsScope_call (env : Env α) (depth : ℕ) : KeepsScope (env.call depth) := by
  intro name args m m' h
  cases depth with
  | zero => cases h
  | succ depth =>
    rw [Env.call] at h
    split at h
    · split at h
      · obtain ⟨inner, -, hinner⟩ := bind_eq_ok.1 h
        cases hinner
        rfl
      · cases h
    · cases h

variable {call : String → List (Value α) → Machine α → Except Fault (Machine α)}

mutual

/-- **The variables after a statement** are those that it declares and those before it. -/
theorem exec_names (hcall : KeepsScope call) {m m' : Machine α} :
    ∀ {s : Stmt}, env.exec call m s = .ok m' → m'.names = s.declared ++ m.names
  | .declareInt x value, h => by
    simp only [exec, bind_eq_ok] at h
    obtain ⟨_, -, _, -, h⟩ := h
    cases h
    rfl
  | .assign target value, h => by
    simp only [exec, bind_eq_ok] at h
    obtain ⟨⟨w, m₁⟩, hvalue, _, -, hstore⟩ := h
    exact (Machine.names_store hstore).trans (names_evalAssigned hvalue)
  | .increment target, h => by
    simp only [exec, bind_eq_ok] at h
    obtain ⟨_, -, _, -, _, -, _, -, hstore⟩ := h
    exact Machine.names_store hstore
  | .release element buffer capacity, h => by
    simp only [exec, bind_eq_ok] at h
    obtain ⟨_, -, p, -, _, -, _, -, _, -, h⟩ := h
    split at h
    · cases h
      exact m.names_release p
    · cases h
  | .call function x, h => by
    rw [exec] at h
    split at h
    · cases h
    · obtain ⟨w, -, h⟩ := bind_eq_ok.1 h
      exact congrArg (List.map Prod.fst) (hcall _ _ _ _ h)
  | .blank, h => by
    cases h
    rfl
  | .ifLess a b body, h => by
    simp only [exec, bind_eq_ok] at h
    obtain ⟨_, -, _, -, _, -, _, -, h⟩ := h
    split at h
    · obtain ⟨inner, hbody, h⟩ := bind_eq_ok.1 h
      cases h
      exact Machine.names_drop (execAll_names hcall hbody)
    · cases h
      rfl

/-- **The variables after statements** are those before them, behind those that they declare. -/
theorem execAll_names (hcall : KeepsScope call) {m m' : Machine α} :
    ∀ {ss : List Stmt}, env.execAll call m ss = .ok m' → m.names <:+ m'.names
  | [], h => by
    cases h
    exact List.suffix_rfl
  | s :: ss, h => by
    rw [execAll] at h
    obtain ⟨m₁, hs, hss⟩ := bind_eq_ok.1 h
    have hdeclared : m.names <:+ m₁.names := by
      rw [exec_names hcall hs]
      exact List.suffix_append ..
    exact hdeclared.trans (execAll_names hcall hss)

end

/-! ### Macros that take a type -/

/-- The run of statements from a machine comes to a macro that takes a type, and then the machine is
the last one. What a statement calls is a run of its own. -/
inductive Meets (env : Env α)
    (call : String → List (Value α) → Machine α → Except Fault (Machine α)) :
    Machine α → List Stmt → TypeSpec → Machine α → Prop
  | grow {m : Machine α} {target buffer old new : Expr} {type : TypeSpec} {ss : List Stmt} :
      env.Meets call m (.assign target (.grownBuffer type buffer old new) :: ss) type m
  | release {m : Machine α} {buffer capacity : Expr} {type : TypeSpec} {ss : List Stmt} :
      env.Meets call m (.release type buffer capacity :: ss) type m
  | block {m m' : Machine α} {a b : Expr} {body ss : List Stmt} {n k : ℕ} {type : TypeSpec}
      (ha : env.eval m a = .ok (.int n)) (hb : env.eval m b = .ok (.int k)) (hlt : n < k)
      (hbody : env.Meets call m body type m') : env.Meets call m (.ifLess a b body :: ss) type m'
  | later {m m₁ m' : Machine α} {s : Stmt} {ss : List Stmt} {type : TypeSpec}
      (hs : env.exec call m s = .ok m₁) (hss : env.Meets call m₁ ss type m') :
      env.Meets call m (s :: ss) type m'

/-- **The variables where a run comes to a macro** are those in scope there. -/
theorem Meets.mem_typeUses (hcall : KeepsScope call) {ss : List Stmt} {type : TypeSpec}
    (h : env.Meets call m ss type m') : ⟨type, m'.names⟩ ∈ bodyTypeUses m.names ss := by
  induction h with
  | grow =>
    exact List.mem_append_left _ (List.mem_append_right _ List.mem_cons_self)
  | release => exact List.mem_append_left _ List.mem_cons_self
  | block _ _ _ _ ih => exact List.mem_append_left _ (List.mem_append_right _ ih)
  | later hs _ ih =>
    rw [exec_names hcall hs] at ih
    exact List.mem_append_right _ ih

/-- What a call of a function comes to is what the function passes to macros. -/
theorem Meets.mem_function_typeUses {g : Function} {depth : ℕ} {args : List (Value α)}
    {type : TypeSpec} (hargs : g.params.length = args.length)
    (h : env.Meets (env.call depth) { m with scope := (g.params.map (·.name)).zip args } g.body
      type m') : ⟨type, m'.names⟩ ∈ g.typeUses := by
  have hlength : (g.params.map (·.name)).length = args.length := by rw [List.length_map, hargs]
  have hnames : ((g.params.map (·.name)).zip args).map Prod.fst = g.params.map (·.name) :=
    List.map_fst_zip (Nat.le_of_eq hlength)
  have huse := h.mem_typeUses (keepsScope_call env depth)
  rwa [Machine.names, hnames] at huse

end Env

end NodeSchema.C.Code

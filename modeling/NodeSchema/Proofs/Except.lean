import Mathlib.Data.List.Forall2

/-!
# Computations that can fail

When a computation in `Except` succeeds or fails, and lists that are related element by element.
-/

namespace NodeSchema

variable {ε α β : Type}

theorem ok_bind (a : α) (f : α → Except ε β) : (Except.ok a >>= f) = f a :=
  rfl

theorem error_bind (e : ε) (f : α → Except ε β) : (Except.error e >>= f) = .error e :=
  rfl

theorem map_ok (f : α → β) (a : α) : f <$> (.ok a : Except ε α) = .ok (f a) :=
  rfl

theorem map_error (f : α → β) (e : ε) : f <$> (.error e : Except ε α) = .error e :=
  rfl

/-- A sequence succeeds exactly if both of its parts do. -/
theorem bind_eq_ok {x : Except ε α} {f : α → Except ε β} {b : β} :
    (x >>= f) = .ok b ↔ ∃ a, x = .ok a ∧ f a = .ok b := by
  cases x <;> simp [bind, Except.bind]

theorem map_eq_ok {x : Except ε α} {f : α → β} {b : β} :
    x.map f = .ok b ↔ ∃ a, x = .ok a ∧ f a = b := by
  cases x <;> simp [Except.map]

/-- A sequence fails in its first part, or in the second one after that. -/
theorem bind_eq_error {x : Except ε α} {f : α → Except ε β} {e : ε} :
    (x >>= f) = .error e ↔ x = .error e ∨ ∃ a, x = .ok a ∧ f a = .error e := by
  cases x <;> simp [bind, Except.bind]

/-- What is done with the value of a computation does not make it fail. -/
theorem bind_pure_eq_error {x : Except ε α} {f : α → β} {e : ε} :
    (x >>= fun a => pure (f a)) = .error e ↔ x = .error e := by
  cases x <;> simp [bind, Except.bind, pure, Except.pure]

theorem map_eq_error {x : Except ε α} {f : α → β} {e : ε} :
    f <$> x = .error e ↔ x = .error e := by
  cases x <;> simp [Functor.map, Except.map]

/-- A list succeeds element by element. -/
theorem mapM_eq_ok {f : α → Except ε β} {as : List α} {bs : List β} :
    as.mapM f = .ok bs ↔ List.Forall₂ (fun a b => f a = .ok b) as bs := by
  induction as generalizing bs with
  | nil =>
    rw [List.mapM_nil, List.forall₂_nil_left_iff]
    exact ⟨fun h => by cases h; rfl, fun h => by rw [h]; rfl⟩
  | cons a as ih =>
    rw [List.mapM_cons, bind_eq_ok]
    constructor
    · rintro ⟨b, hb, h⟩
      obtain ⟨bs, hbs, h⟩ := bind_eq_ok.1 h
      cases h
      exact .cons hb (ih.1 hbs)
    · rintro (_ | ⟨hb, hbs⟩)
      exact ⟨_, hb, bind_eq_ok.2 ⟨_, ih.2 hbs, rfl⟩⟩

/-- A list stops at the first of its elements that fails. -/
theorem mapM_eq_error {f : α → Except ε β} {as : List α} {e : ε} :
    as.mapM f = .error e ↔
      ∃ before a after, as = before ++ a :: after ∧ (∀ x ∈ before, ∃ b, f x = .ok b) ∧
        f a = .error e := by
  induction as with
  | nil =>
    rw [List.mapM_nil]
    simp [pure, Except.pure]
  | cons a as ih =>
    rw [List.mapM_cons, bind_eq_error]
    simp only [bind_pure_eq_error, ih]
    constructor
    · rintro (ha | ⟨b, hb, before, a', after, rfl, hbefore, ha'⟩)
      · exact ⟨[], a, as, rfl, by simp, ha⟩
      · exact ⟨a :: before, a', after, rfl, List.forall_mem_cons.2 ⟨⟨b, hb⟩, hbefore⟩, ha'⟩
    · rintro ⟨_ | ⟨a', before⟩, a'', after, h, hbefore, ha⟩
      · obtain ⟨rfl, -⟩ := List.cons_eq_cons.1 h
        exact .inl ha
      · obtain ⟨rfl, rfl⟩ := List.cons_eq_cons.1 h
        obtain ⟨⟨b, hb⟩, hbefore⟩ := List.forall_mem_cons.1 hbefore
        exact .inr ⟨b, hb, before, a'', after, rfl, hbefore, ha⟩

/-- A fold stops at the first element whose step fails. -/
theorem foldlM_eq_error {f : β → α → Except ε β} {as : List α} {b : β} {e : ε} :
    as.foldlM f b = .error e ↔
      ∃ before a after c, as = before ++ a :: after ∧ before.foldlM f b = .ok c ∧
        f c a = .error e := by
  induction as generalizing b with
  | nil => simp [pure, Except.pure]
  | cons a as ih =>
    rw [List.foldlM_cons, bind_eq_error]
    constructor
    · rintro (ha | ⟨b', hb', h⟩)
      · exact ⟨[], a, as, b, rfl, rfl, ha⟩
      · obtain ⟨before, a', after, c, rfl, hbefore, ha'⟩ := ih.1 h
        exact ⟨a :: before, a', after, c, rfl, bind_eq_ok.2 ⟨b', hb', hbefore⟩, ha'⟩
    · rintro ⟨_ | ⟨a', before⟩, a'', after, c, h, hbefore, ha⟩
      · obtain ⟨rfl, rfl⟩ := List.cons_eq_cons.1 h
        cases hbefore
        exact .inl ha
      · obtain ⟨rfl, rfl⟩ := List.cons_eq_cons.1 h
        obtain ⟨b', hb', hbefore⟩ := bind_eq_ok.1 hbefore
        exact .inr ⟨b', hb', ih.2 ⟨before, a'', after, c, rfl, hbefore, ha⟩⟩

theorem forall₂_and_right_iff {R : α → β → Prop} {p : β → Prop} {as : List α} {bs : List β} :
    List.Forall₂ (fun a b => R a b ∧ p b) as bs ↔ List.Forall₂ R as bs ∧ ∀ b ∈ bs, p b := by
  induction as generalizing bs with
  | nil => cases bs <;> simp
  | cons a as ih =>
    cases bs with
    | nil => simp
    | cons b bs =>
      rw [List.forall₂_cons, List.forall₂_cons, List.forall_mem_cons, ih, and_and_and_comm]

theorem exists_of_forall₂ {R : α → β → Prop} {as : List α} {bs : List β} (h : List.Forall₂ R as bs)
    {a : α} (ha : a ∈ as) : ∃ b ∈ bs, R a b := by
  induction h with
  | nil => cases ha
  | @cons a' b as bs hab _ ih =>
    rcases List.mem_cons.1 ha with rfl | ha
    · exact ⟨b, List.mem_cons_self, hab⟩
    · obtain ⟨c, hc, hac⟩ := ih ha
      exact ⟨c, List.mem_cons_of_mem _ hc, hac⟩

/-- If every element is related to something, the list is related to a list. -/
theorem exists_forall₂ {R : α → β → Prop} {as : List α} (h : ∀ a ∈ as, ∃ b, R a b) :
    ∃ bs, List.Forall₂ R as bs := by
  induction as with
  | nil => exact ⟨[], .nil⟩
  | cons a as ih =>
    obtain ⟨⟨b, hb⟩, has⟩ := List.forall_mem_cons.1 h
    obtain ⟨bs, hbs⟩ := ih has
    exact ⟨b :: bs, .cons hb hbs⟩

theorem forall₂_imp_of_mem {R S : α → β → Prop} {as : List α} {bs : List β}
    (h : List.Forall₂ R as bs) (hRS : ∀ a ∈ as, ∀ b, R a b → S a b) : List.Forall₂ S as bs := by
  induction h with
  | nil => exact .nil
  | cons hab _ ih =>
    obtain ⟨h1, h2⟩ := List.forall_mem_cons.1 hRS
    exact .cons (h1 _ hab) (ih h2)

end NodeSchema

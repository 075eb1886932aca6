import NodeSchema.Proofs.Store.Runs
import NodeSchema.Store.Query

/-!
# Refusals

An action that is refused changes nothing, although what an action has changed is kept also when it
fails: every check comes before the first change. The errors of actions and questions are about
nodes, and none of them points into a schema.

* `perform_error`: an action that is refused leaves the store alone.
* `OK.misuse_of_ask`: a question about a live node is never refused for want of a variant.
* `refuses_of_get?`: all operations on a stale handle are refused.
* `refusals_run`: the first two after every run, and that a child which passes all checks always finds
  the slot for it.
-/

namespace NodeSchema.Store

variable {r : Registry} {s t : Store r}

/-! ### Actions -/

theorem Effect.error {a : Action} {e : Error} (he : s.Effect a (.error e) t) :
    t = s ∧ e.AboutNodes := by
  cases he with
  | refused _ _ he => exact ⟨rfl, he⟩

/-- **An action that is refused changes nothing.** -/
theorem perform_error {a : Action} {e : Error} (ha : s.perform a = (.error e, t)) :
    t = s ∧ e.AboutNodes := by
  have he := s.perform_effect a
  rw [ha] at he
  exact he.error

/-! ### Questions -/

/-- A question fails because it misuses the node, or because the node has no variant. -/
theorem ask_error {h : Handle} {q : Query} {e : Error} (he : s.ask h q = .error e) :
    e.Misuse ∨ s.Shapeless h e := by
  cases q with
  | header | owner | isMarked =>
    exact Or.inl (misuse_of_node (bind_pure_eq_error.1 (map_eq_error.1 he)))
  | variantName | family =>
    rcases bind_eq_error.1 (map_eq_error.1 he) with he | ⟨n, hn, he⟩
    · exact Or.inl (misuse_of_node he)
    · exact Or.inr ⟨n, node_eq_ok_iff.1 hn, bind_pure_eq_error.1 he⟩
  | discriminator =>
    rcases bind_eq_error.1 (map_eq_error.1 he) with he | ⟨n, -, he⟩
    · exact Or.inl (misuse_of_node he)
    · split at he
      · cases he
      · cases he
        exact Or.inl ⟨⟨rfl, rfl⟩, by simp⟩
  -- the slot that a place points to is of the kind that is read, or there is a mismatch
  | value field | child field | children field =>
    rcases bind_eq_error.1 (map_eq_error.1 he) with he | ⟨p, -, he⟩
    · exact place_error he
    · split at he
      · cases he
      · cases he
        exact Or.inl (misuse_mismatch p _)

/-- **A live node has a variant**, so no question about it fails for want of one. -/
theorem OK.misuse_of_ask (hs : s.OK) {h : Handle} {q : Query} {e : Error}
    (he : s.ask h q = .error e) : e.Misuse := by
  rcases ask_error he with he | ⟨n, hn, hshape⟩
  · exact he
  · obtain ⟨f, v, hok, -⟩ := hs.shape h n hn
    rw [hok] at hshape
    cases hshape

/-! ### Stale handles -/

/-- The node on which an action works. -/
def Action.node? : Action → Option Handle
  | .allocate _ _ | .clearMarks => none
  | .setValue h _ _ | .setChild h _ _ | .pushChild h _ _ | .mark h | .freeTree h => some h

/-- **Every operation on a stale handle is refused** for this reason, and the same holds for attaching
its node once the parent and the field have passed their checks. -/
structure Refuses (s : Store r) (h : Handle) : Prop where
  contains : s.contains h = false
  ask : ∀ q, s.ask h q = .error (.staleNode h.index)
  perform : ∀ a, a.node? = some h → s.perform a = (.error (.staleNode h.index), s)
  setChild : ∀ p field q, s.place p field = .ok q → q.field.ownership = .child →
    s.perform (.setChild p field h) = (.error (.staleNode h.index), s)
  pushChild : ∀ p field q, s.place p field = .ok q → q.field.ownership = .sequence →
    s.perform (.pushChild p field h) = (.error (.staleNode h.index), s)

theorem place_stale {h : Handle} (hn : s.node h = .error (.staleNode h.index)) (field : String) :
    s.place h field = .error (.staleNode h.index) := by
  rw [place, hn]
  rfl

theorem attachPlace_stale {h : Handle} (hn : s.node h = .error (.staleNode h.index))
    (wanted : Ownership) (field : String) (c : Handle) :
    s.attachPlace wanted h field c = .error (.staleNode h.index) := by
  rw [attachPlace_eq, place_stale hn]
  rfl

theorem attachPlace_stale_child {p c : Handle} {wanted : Ownership} {field : String} {q : Place r}
    (hq : s.place p field = .ok q) (hw : q.field.ownership = wanted)
    (hn : s.node c = .error (.staleNode c.index)) :
    s.attachPlace wanted p field c = .error (.staleNode c.index) := by
  rw [attachPlace_eq, hq, hn]
  change (if q.field.ownership ≠ wanted then _ else _) = _
  rw [if_neg (not_not.2 hw)]
  rfl

theorem refuses_of_get? {h : Handle} (hh : s.get? h = none) : s.Refuses h := by
  have hn : s.node h = .error (.staleNode h.index) := node_eq_error_iff.2 ⟨hh, rfl⟩
  have hplace := place_stale hn
  have hattach := attachPlace_stale hn
  refine ⟨by rw [Store.contains, hh]; rfl, fun q => ?_, fun a ha => ?_, ?_, ?_⟩
  · cases q with
    | value field | child field | children field =>
      simp only [Store.ask, value, child, children, hplace]
      rfl
    | _ =>
      simp only [Store.ask, header, variantName, discriminator, family, owner, isMarked, hn]
      rfl
  · cases a with
    | allocate variant line => cases ha
    | clearMarks => cases ha
    | setValue k field text =>
      cases ha
      rw [perform_setValue, hplace]
    | setChild k field c =>
      cases ha
      rw [perform_setChild, hattach]
    | pushChild k field c =>
      cases ha
      rw [perform_pushChild, hattach]
    | mark k =>
      cases ha
      rw [perform_mark, hn]
    | freeTree k =>
      cases ha
      rw [perform_freeTree, hh]
  · intro p field q hq hw
    rw [perform_setChild, attachPlace_stale_child hq hw hn]
  · intro p field q hq hw
    rw [perform_pushChild, attachPlace_stale_child hq hw hn]

/-! ### Runs -/

/-- **Refusals**, after every run of actions. An action that is refused leaves the whole store as it
was, and its error points into no schema; so does the error of a question. No question fails because
a variant is unknown. When a child passes the checks of an attachment, the slot that it comes to is
of the right kind, so attaching it cannot fail any more. -/
theorem refusals_run (r : Registry) (actions : List Action) :
    let s := ((empty : Store r).run actions).2
    (∀ a e t, s.perform a = (.error e, t) →
      t = s ∧ e.location? = none ∧ e.isSchemaError = false) ∧
    (∀ h q e, s.ask h q = .error e → e.location? = none ∧ e.isSchemaError = false ∧
      ∀ name, e ≠ .unknownVariant name) ∧
    (∀ h field c p, s.attachPlace .child h field c = .ok p →
      ∃ previous, p.slot? = some (.child previous)) ∧
    (∀ h field c p, s.attachPlace .sequence h field c = .ok p →
      ∃ nodes, p.slot? = some (.children nodes)) := by
  intro s
  have hs : s.OK := ok_run r actions
  refine ⟨?_, ?_, ?_, ?_⟩
  · intro a e t ha
    obtain ⟨ht, he⟩ := perform_error ha
    exact ⟨ht, he.location, he.not_schema⟩
  · intro h q e hq
    have he := hs.misuse_of_ask hq
    exact ⟨he.location, he.not_schema, he.known⟩
  · exact fun _ _ _ _ hp => hs.child_of_attachPlace hp
  · exact fun _ _ _ _ hp => hs.children_of_attachPlace hp

end NodeSchema.Store

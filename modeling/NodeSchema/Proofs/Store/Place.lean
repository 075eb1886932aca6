import NodeSchema.Proofs.Except
import NodeSchema.Proofs.Store.View

/-!
# Shapes and places

What a node knows of its variant, and where its fields have their slots.

* `Node.ShapeOK`: the slots of a node are of the kinds that its fields prescribe.
* `place_ok`: the place of a field is the slot of this field in a live node.
* `attachPlace_ok`: what is known of a child and a place when the child may be attached there.
* `Error.AboutNodes`, `Error.Misuse`: what is known of the error when there is no such place.
-/

namespace NodeSchema

variable {r : Registry}

/-! ### Shapes -/

theorem Registry.shape_ok_iff {kind : ℕ} {f : Family} {v : Record} :
    r.shape kind = .ok (f, v) ↔
      r.variant? (((r.discriminators[kind]?).map (·.variant)).getD "") = some (f, v) := by
  unfold Registry.shape
  simp only
  cases r.variant? (((r.discriminators[kind]?).map (·.variant)).getD "") <;> simp

/-- **The variant for which a node is made is the one that its discriminator leads back to.** -/
theorem Registry.shape_of_discriminatorOf? {name : String} {f : Family} {v : Record} {kind : ℕ}
    (hv : r.variant? name = some (f, v)) (hk : r.discriminatorOf? name = some kind) :
    r.shape kind = .ok (f, v) := by
  obtain ⟨hlt, hd, -⟩ := List.findIdx?_eq_some_iff_getElem.1 hk
  have hname : (r.discriminators[kind]).variant = name := by simpa using hd
  rw [shape_ok_iff, List.getElem?_eq_getElem hlt, Option.map_some, Option.getD_some, hname, hv]

/-- A node is of a variant of the registry, and its slots are of the kinds that the fields of this
variant prescribe, one each. -/
def Node.ShapeOK (n : Node r) : Prop :=
  ∃ f v, n.shape = .ok (f, v) ∧
    n.slots.map Slot.ownership = (f.nodeFields v).map Field.ownership

/-- Only the discriminator and the kinds of the slots matter. -/
theorem Node.ShapeOK.of_eq {n m : Node r} (hn : n.ShapeOK) (hk : m.kind = n.kind)
    (hs : m.slots.map Slot.ownership = n.slots.map Slot.ownership) : m.ShapeOK := by
  obtain ⟨f, v, hshape, hslots⟩ := hn
  refine ⟨f, v, ?_, hs.trans hslots⟩
  rw [← hshape, Node.shape, Node.shape, hk]

theorem Node.shapeOK_fresh {f : Family} {v : Record} {kind : ℕ} (h : r.shape kind = .ok (f, v))
    (line : ℕ) : (Node.fresh f v kind line : Node r).ShapeOK := by
  have hslot : Slot.ownership ∘ Slot.ofField = Field.ownership := funext Slot.ownership_ofField
  refine ⟨f, v, h, ?_⟩
  unfold Node.fresh
  rw [List.map_map, hslot]

theorem Slot.handles_ofField (f : Field) : (Slot.ofField f).handles = [] := by
  unfold Slot.ofField
  split <;> rfl

theorem Node.children_fresh (f : Family) (v : Record) (kind line : ℕ) :
    (Node.fresh f v kind line : Node r).children = [] := by
  unfold Node.children Node.fresh
  rw [List.flatMap_map, List.flatMap_eq_nil_iff]
  exact fun field _ => Slot.handles_ofField field

/-- A field that is found by its name is at the position of its slot. -/
theorem Family.getElem?_of_nodeField? {f : Family} {v : Record} {name : String} {field : Field}
    {i : ℕ} (h : f.nodeField? v name = some (field, i)) : (f.nodeFields v)[i]? = some field := by
  unfold Family.nodeField? at h
  simp only [Option.or_eq_some_iff] at h
  unfold Family.nodeFields
  -- a field of the variant comes after those of the base record
  rcases h with h | ⟨-, h⟩
  · have hm := List.mem_of_find?_eq_some h
    obtain ⟨hle, hlt, hf⟩ := List.mem_zipIdx hm
    rw [List.getElem?_append_right hle, List.getElem?_eq_getElem (by omega), hf]
  · have hm := List.mem_of_find?_eq_some h
    obtain ⟨-, hlt, hf⟩ := List.mem_zipIdx hm
    simp only [Nat.zero_add] at hlt
    rw [List.getElem?_append_left hlt, List.getElem?_eq_getElem hlt, hf]
    simp

/-! ### Slots -/

/-- Each field of a node has a slot, of the kind that the field prescribes. -/
theorem Node.ShapeOK.exists_slot {n : Node r} (hn : n.ShapeOK) {f : Family} {v : Record}
    (hshape : n.shape = .ok (f, v)) {field : Field} {i : ℕ}
    (hfield : (f.nodeFields v)[i]? = some field) :
    ∃ slot, n.slots[i]? = some slot ∧ slot.ownership = field.ownership := by
  obtain ⟨f', v', hshape', hslots⟩ := hn
  rw [hshape] at hshape'
  cases hshape'
  have hi := congrArg (·[i]?) hslots
  simp only [List.getElem?_map, hfield, Option.map_some, Option.map_eq_some_iff] at hi
  exact hi

theorem Node.shapeOK_setSlot {n : Node r} (hn : n.ShapeOK) {i : ℕ} {g : Slot → Slot}
    (hg : ∀ slot, n.slots[i]? = some slot → (g slot).ownership = slot.ownership) :
    (n.setSlot i g).ShapeOK := by
  refine hn.of_eq rfl ?_
  -- slot by slot, as only slot `i` changes
  apply List.ext_getElem?
  intro j
  simp only [Node.slots_setSlot, List.getElem?_map, List.getElem?_modify]
  by_cases hj : i = j
  · subst hj
    cases hs : n.slots[i]? with
    | none => simp
    | some slot => simp [hg slot hs]
  · simp [hj]

/-- The children of a node around one of its slots. -/
theorem Node.children_split {n : Node r} {i : ℕ} {slot : Slot} (hs : n.slots[i]? = some slot) :
    ∃ before after, n.children = before ++ slot.handles ++ after ∧
      ∀ g, (n.setSlot i g).children = before ++ (g slot).handles ++ after := by
  obtain ⟨hi, rfl⟩ := List.getElem?_eq_some_iff.1 hs
  refine ⟨(n.slots.take i).flatMap Slot.handles, (n.slots.drop (i + 1)).flatMap Slot.handles,
    ?_, ?_⟩
  · unfold Node.children
    conv_lhs => rw [← List.take_append_drop i n.slots, List.drop_eq_getElem_cons hi]
    rw [List.flatMap_append, List.flatMap_cons, List.append_assoc]
  · intro g
    unfold Node.children Node.setSlot
    simp [List.modify_eq_take_cons_drop hi]

namespace Store

variable {s : Store r}

/-! ### Where children are attached -/

/-- **A place is the slot of a field** of the variant of a live node. -/
theorem place_ok {h : Handle} {field : String} {p : Place r} (hp : s.place h field = .ok p) :
    s.get? h = some p.node ∧ ∃ f, p.node.shape = .ok (f, p.variant) ∧
      f.nodeField? p.variant field = some (p.field, p.index) := by
  obtain ⟨n, hn, hp⟩ := bind_eq_ok.1 hp
  obtain ⟨⟨f, v⟩, hshape, hp⟩ := bind_eq_ok.1 hp
  simp only at hp
  split at hp
  · rename_i hfield
    cases hp
    exact ⟨node_eq_ok_iff.1 hn, f, hshape, hfield⟩
  · cases hp

/-- The checks before a child is attached, one after the other. -/
theorem attachPlace_eq (s : Store r) (wanted : Ownership) (h : Handle) (field : String)
    (c : Handle) : s.attachPlace wanted h field c =
      s.place h field >>= fun p =>
        if p.field.ownership ≠ wanted then .error (p.mismatch wanted)
        else s.node c >>= fun n =>
          if n.owner.isSome then .error (.alreadyOwned c.index)
          else if c ∈ s.lineage h then .error (.ownershipCycle c.index)
          else n.shape >>= fun (f, v) =>
            if r.holds p.field.type.typeName f v then .ok p
            else .error (.familyMismatch p.variant.name p.field.name p.field.type.typeName
              v.name) :=
  rfl

/-- **A child that is attached** is of a variant that the field holds, has no owner and is not above
the node that it comes to. -/
theorem attachPlace_ok {wanted : Ownership} {h c : Handle} {field : String} {p : Place r}
    (hp : s.attachPlace wanted h field c = .ok p) :
    s.place h field = .ok p ∧ p.field.ownership = wanted ∧ ∃ n f v, s.get? c = some n ∧
      n.owner = none ∧ c ∉ s.lineage h ∧ n.shape = .ok (f, v) ∧
      r.holds p.field.type.typeName f v = true := by
  rw [attachPlace_eq] at hp
  obtain ⟨q, hq, hp⟩ := bind_eq_ok.1 hp
  by_cases hw : q.field.ownership = wanted
  case neg => simp [hw] at hp
  rw [if_neg (not_not.2 hw)] at hp
  obtain ⟨n, hn, hp⟩ := bind_eq_ok.1 hp
  split at hp
  · cases hp
  rename_i ho
  split at hp
  · cases hp
  rename_i hc
  obtain ⟨⟨f, v⟩, hshape, hp⟩ := bind_eq_ok.1 hp
  simp only at hp
  split at hp
  · rename_i hh
    cases hp
    exact ⟨hq, hw, n, f, v, node_eq_ok_iff.1 hn, by simpa using ho, hc, hshape, hh⟩
  · cases hp

end Store

/-! ### Errors -/

namespace Error

/-- An error that is not about a schema, and points at no place in one. -/
structure AboutNodes (e : Error) : Prop where
  location : e.location? = none
  not_schema : e.isSchemaError = false

/-- An error about the use of a node, whose variant is known. -/
structure Misuse (e : Error) : Prop extends e.AboutNodes where
  known : ∀ name, e ≠ .unknownVariant name

end Error

namespace Store

variable {s : Store r}

theorem misuse_of_node {h : Handle} {e : Error} (he : s.node h = .error e) : e.Misuse := by
  obtain ⟨-, rfl⟩ := node_eq_error_iff.1 he
  exact ⟨⟨rfl, rfl⟩, by simp⟩

theorem aboutNodes_of_shape {kind : ℕ} {e : Error} (he : r.shape kind = .error e) :
    e.AboutNodes := by
  unfold Registry.shape at he
  simp only at he
  split at he
  · cases he
  · cases he
    exact ⟨rfl, rfl⟩

theorem misuse_mismatch (p : Place r) (wanted : Ownership) : (p.mismatch wanted).Misuse :=
  ⟨⟨rfl, rfl⟩, by simp [Place.mismatch]⟩

/-- What goes wrong with a live node whose variant the registry does not have. -/
def Shapeless (s : Store r) (h : Handle) (e : Error) : Prop :=
  ∃ n, s.get? h = some n ∧ n.shape = .error e

theorem Shapeless.aboutNodes {h : Handle} {e : Error} (he : s.Shapeless h e) : e.AboutNodes := by
  obtain ⟨n, -, hshape⟩ := he
  exact aboutNodes_of_shape hshape

theorem place_error {h : Handle} {field : String} {e : Error} (he : s.place h field = .error e) :
    e.Misuse ∨ s.Shapeless h e := by
  rcases bind_eq_error.1 he with he | ⟨n, hn, he⟩
  · exact Or.inl (misuse_of_node he)
  rcases bind_eq_error.1 he with he | ⟨⟨f, v⟩, -, he⟩
  · exact Or.inr ⟨n, node_eq_ok_iff.1 hn, he⟩
  simp only at he
  split at he
  · cases he
  · cases he
    exact Or.inl ⟨⟨rfl, rfl⟩, by simp⟩

theorem aboutNodes_of_place {h : Handle} {field : String} {e : Error}
    (he : s.place h field = .error e) : e.AboutNodes :=
  (place_error he).elim (·.toAboutNodes) (·.aboutNodes)

theorem aboutNodes_of_attachPlace {wanted : Ownership} {h c : Handle} {field : String} {e : Error}
    (he : s.attachPlace wanted h field c = .error e) : e.AboutNodes := by
  rw [attachPlace_eq] at he
  rcases bind_eq_error.1 he with he | ⟨p, -, he⟩
  · exact aboutNodes_of_place he
  split at he
  · cases he
    exact ⟨rfl, rfl⟩
  rcases bind_eq_error.1 he with he | ⟨n, -, he⟩
  · exact (misuse_of_node he).toAboutNodes
  split at he
  · cases he
    exact ⟨rfl, rfl⟩
  split at he
  · cases he
    exact ⟨rfl, rfl⟩
  rcases bind_eq_error.1 he with he | ⟨⟨f, v⟩, -, he⟩
  · exact aboutNodes_of_shape he
  simp only at he
  split at he
  · cases he
  · cases he
    exact ⟨rfl, rfl⟩

end Store

end NodeSchema

import NodeSchema.Proofs.Store.Refusal
import NodeSchema.Proofs.Store.Typing

/-!
# Which children may be attached

A child is attached, or refused for the first reason that applies. The reasons are said here by the
live nodes, the fields of the registry and the owners, without a word on how they are looked for.

* `Store.climb`: the search for a child on the way up from the node it is to be attached to. It asks
  for one owner after the other and has no bound. `OK.climb_eq`: it ends, at the child or at a root.
* `Family.Locates`: the field of a name, and `Consistent.locates_iff`: this is what the look-up finds.
* `Registry.Misfits`: why a field refuses a variant. `Consistent.misfits_iff`: there is no other reason.
* `Decides`: the answer to an attempt, one case for each reason and one for success.
* `attachments_decided`: after every run, attempts are answered as `Decides` says.
-/

namespace NodeSchema

variable {r : Registry}

/-! ### The field of a name -/

/-- **The field of a name** in the nodes of a variant. A field of the variant hides one of the base
record. -/
def Family.Locates (f : Family) (v : Record) (name : String) (x : Field) : Prop :=
  x.name = name ∧ (x ∈ v.fields ∨ x ∈ f.base.extraFields ∧ ∀ y ∈ v.fields, y.name ≠ name)

/-- The position does not matter for which field is found. -/
theorem Family.map_nodeField? (f : Family) (v : Record) (name : String) :
    (f.nodeField? v name).map Prod.fst =
      (v.fields.find? (·.name = name)).or (f.base.extraFields.find? (·.name = name)) := by
  have hfind : ∀ (xs : List Field) (k : ℕ),
      ((xs.zipIdx k).find? (·.1.name = name)).map Prod.fst = xs.find? (·.name = name) := by
    intro xs k
    conv_rhs => rw [← List.zipIdx_map_fst k xs, List.find?_map]
    rfl
  unfold nodeField?
  rw [Option.map_or, hfind, hfind]

namespace Registry

/-- The fields that a base record adds have names of their own. -/
theorem Consistent.extraFields_nodup (hc : r.Consistent) {f : Family} (hf : f ∈ r.families) :
    (f.base.extraFields.map (·.name)).Nodup := by
  have hnodup := hc.base_fields f hf
  rw [hc.base_fields_eq hf, List.map_cons] at hnodup
  exact (List.nodup_cons.1 hnodup).2

/-- **The look-up of a field finds the one of its name**, as no two fields of a record share one. -/
theorem Consistent.locates_iff (hc : r.Consistent) {f : Family} {v : Record}
    (hf : f ∈ r.families) (hv : v ∈ f.variants) (name : String) (x : Field) :
    f.Locates v name x ↔ ∃ i, f.nodeField? v name = some (x, i) := by
  have hown := (hc.variant_fields f hf v hv).1
  have hbase := hc.extraFields_nodup hf
  have hmap : (∃ i, f.nodeField? v name = some (x, i)) ↔
      (f.nodeField? v name).map Prod.fst = some x := by
    simp
  rw [hmap, f.map_nodeField?, Option.or_eq_some_iff, find?_key_eq_some_iff hown,
    find?_key_eq_some_iff hbase, find?_key_eq_none_iff]
  unfold Family.Locates
  constructor
  · rintro ⟨hname, hx | ⟨hx, hno⟩⟩
    · exact .inl ⟨hx, hname⟩
    · refine .inr ⟨fun hmem => ?_, hx, hname⟩
      obtain ⟨y, hy, hyn⟩ := List.mem_map.1 hmem
      exact hno y hy hyn
  · rintro (⟨hx, hname⟩ | ⟨hno, hx, hname⟩)
    · exact ⟨hname, .inl hx⟩
    · exact ⟨hname, .inr ⟨hx, fun y hy hyn => hno (List.mem_map.2 ⟨y, hy, hyn⟩)⟩⟩

/-! ### Variants that do not fit -/

/-- **A field of the type `type` refuses the variant `v` of the family `f`.** The type is the base
record or the container of another family, or it is neither of these and is another variant. -/
def Misfits (r : Registry) (type : String) (f : Family) (v : Record) : Prop :=
  (∃ g ∈ r.families, (g.base.name = type ∨ g.containerType = type) ∧ g ≠ f) ∨
    (∀ g ∈ r.families, g.base.name ≠ type ∧ g.containerType ≠ type) ∧
      (∃ g ∈ r.families, ∃ w ∈ g.variants, w.name = type) ∧ v.name ≠ type

/-- A variant fits or is refused. -/
theorem Consistent.misfits_iff (hc : r.Consistent) {type : String} {f : Family} {v : Record}
    (hf : f ∈ r.families) (hv : v ∈ f.variants) : r.Misfits type f v ↔ ¬ r.Fits type f v := by
  by_cases htype : ∃ g ∈ r.families, g.base.name = type ∨ g.containerType = type
  · obtain ⟨g, hg, hgt⟩ := htype
    rw [hc.fits_iff_eq hg hgt]
    constructor
    · rintro (⟨g', hg', hgt', hne⟩ | ⟨hno, -⟩) rfl
      -- a type is that of one family only
      · have hfits : r.Fits type f v := (hc.fits_iff_eq hg hgt).2 rfl
        exact hne (hfits.family g' hg' hgt').symm
      · exact not_or.2 (hno f hg) hgt
    · intro hne
      exact .inl ⟨g, hg, hgt, Ne.symm hne⟩
  · have hno : ∀ g ∈ r.families, g.base.name ≠ type ∧ g.containerType ≠ type := by
      intro g hg
      rw [← not_or]
      exact fun hgt => htype ⟨g, hg, hgt⟩
    have hvariant : r.variant? type = none ↔ ¬ ∃ g ∈ r.families, ∃ w ∈ g.variants, w.name = type := by
      rw [hc.looksUp.variant.none_iff, List.mem_map, not_iff_not]
      constructor
      · rintro ⟨⟨g, w⟩, hgw, hname⟩
        obtain ⟨hg, hw⟩ := mem_variants_iff.1 hgw
        exact ⟨g, hg, w, hw, hname⟩
      · rintro ⟨g, hg, w, hw, hname⟩
        exact ⟨(g, w), mem_variants_iff.2 ⟨hg, hw⟩, hname⟩
    rw [hc.fits_iff_name hf hv hno, hvariant, not_or, not_not]
    constructor
    · rintro (⟨g, hg, hgt, -⟩ | ⟨-, hw⟩)
      · exact (htype ⟨g, hg, hgt⟩).elim
      · exact hw
    · intro hw
      exact .inr ⟨hno, hw⟩

theorem Consistent.misfits_iff_not_holds (hc : r.Consistent) {type : String} {f : Family}
    {v : Record} (hf : f ∈ r.families) (hv : v ∈ f.variants) :
    r.Misfits type f v ↔ ¬ r.holds type f v := by
  rw [hc.misfits_iff hf hv, holds_iff_fits hc hf hv]

end Registry

namespace Store

variable {s : Store r}

/-! ### The way up -/

/-- **The search for `c` on the way up from `h`**, owner by owner. It is `none` if it never ends. -/
def climb (s : Store r) (c h : Handle) : Option (Except Error Unit) :=
  if h = c then some (.error (.ownershipCycle c.index))
  else
    match s.node h with
    | .error e => some (.error e)
    | .ok n =>
      match n.owner with
      | some p => s |>.climb c p
      | none => some (.ok ())
partial_fixpoint

/-- The search in a store with finite ways up: it never meets a stale owner, and it ends. -/
theorem Rooted.climb_eq {h : Handle} (hr : s.Rooted h) (c : Handle) :
    (s.Up h c → s.climb c h = some (.error (.ownershipCycle c.index))) ∧
      (¬ s.Up h c → s.climb c h = some (.ok ())) := by
  induction hr with
  | top h n hn ho =>
    rw [up_iff, ownerOf_eq hn, ho, climb, node_eq_ok_iff.2 hn]
    by_cases he : h = c
    · simp [he]
    · simp [he, Ne.symm he, ho]
  | step h n p hn ho _ ih =>
    rw [up_iff, ownerOf_eq hn, ho, climb, node_eq_ok_iff.2 hn]
    by_cases he : h = c
    · simp [he]
    · simpa [he, Ne.symm he, ho] using ih

/-- A node is above those that are below it. -/
theorem OK.up_iff_below (hs : s.OK) {h a : Handle} : s.Up h a ↔ s.Below a h := by
  refine ⟨fun hup => ?_, hs.up_of_below⟩
  induction hup using Relation.ReflTransGen.head_induction_on with
  | refl => exact Relation.ReflTransGen.refl
  | @head k p hp _ ih => exact ih.tail ((hs.links p k).2 hp)

/-- **The way up from the node of `p`.** The search for any node ends, and finds those that are above
`p`. The bounded walk meets the same ones. They are those which have `p` below them. -/
structure Ascends (s : Store r) (p : Handle) : Prop where
  meets : ∀ c, s.climb c p = some (.error (.ownershipCycle c.index)) ↔ s.Up p c
  ends : ∀ c, s.climb c p = some (.ok ()) ↔ ¬ s.Up p c
  lineage : ∀ c, c ∈ s.lineage p ↔ s.Up p c
  below : ∀ c, s.Up p c ↔ s.Below c p

theorem OK.ascends (hs : s.OK) {p : Handle} {n : Node r} (hn : s.get? p = some n) :
    s.Ascends p := by
  have hr := hs.rooted p n hn
  refine ⟨fun c => ?_, fun c => ?_, mem_lineage_iff hr, fun c => hs.up_iff_below⟩
  · obtain ⟨hmeets, hends⟩ := hr.climb_eq c
    refine ⟨fun hclimb => ?_, hmeets⟩
    by_contra hno
    rw [hends hno] at hclimb
    cases hclimb
  · obtain ⟨hmeets, hends⟩ := hr.climb_eq c
    refine ⟨fun hclimb hup => ?_, hends⟩
    rw [hmeets hup] at hclimb
    cases hclimb

/-! ### Attempts to attach -/

/-- The node of `h` is live and of the variant `v` of the family `f`. -/
structure IsA (s : Store r) (h : Handle) (f : Family) (v : Record) : Prop where
  family : f ∈ r.families
  variant : v ∈ f.variants
  live : ∃ n, s.get? h = some n ∧ n.shape = .ok (f, v)

/-- The node of `p` is live and of the variant `v`, and its field of this name is `x`. -/
def HasField (s : Store r) (p : Handle) (name : String) (v : Record) (x : Field) : Prop :=
  ∃ f, s.IsA p f v ∧ f.Locates v name x

/-- The field of this name in the node of `p` owns what it holds as `wanted`. -/
structure Offers (s : Store r) (wanted : Ownership) (p : Handle) (name : String) (v : Record)
    (x : Field) : Prop where
  field : s.HasField p name v x
  ownership : x.ownership = wanted

/-- The node of `c` is live and has no owner. -/
def Unowned (s : Store r) (c : Handle) : Prop :=
  ∃ n, s.get? c = some n ∧ n.owner = none

/-- **The answer to an attempt to attach `c`** to the field of a name in `p`, which has to own it as
`wanted`. In each case what is said in the cases before does not apply. -/
inductive Decides (s : Store r) (wanted : Ownership) (p : Handle) (name : String) (c : Handle) :
    Except Error Unit → Prop
  | staleParent : s.get? p = none → Decides s wanted p name c (.error (.staleNode p.index))
  | unknownField (f : Family) (v : Record) : s.IsA p f v →
      (∀ x ∈ v.fields, x.name ≠ name) → (∀ x ∈ f.base.extraFields, x.name ≠ name) →
      Decides s wanted p name c (.error (.unknownField v.name name))
  | otherOwnership (v : Record) (x : Field) : s.HasField p name v x →
      x.ownership ≠ wanted → Decides s wanted p name c
        (.error (.ownershipMismatch v.name name wanted.text x.ownership.text))
  | staleChild (v : Record) (x : Field) : s.Offers wanted p name v x →
      s.get? c = none → Decides s wanted p name c (.error (.staleNode c.index))
  | alreadyOwned (v : Record) (x : Field) : s.Offers wanted p name v x →
      (∃ n owner, s.get? c = some n ∧ n.owner = some owner) →
      Decides s wanted p name c (.error (.alreadyOwned c.index))
  | cycle (v : Record) (x : Field) : s.Offers wanted p name v x → s.Unowned c →
      s.Up p c → Decides s wanted p name c (.error (.ownershipCycle c.index))
  | misfit (v : Record) (x : Field) (g : Family) (w : Record) : s.Offers wanted p name v x →
      s.Unowned c → ¬ s.Up p c → s.IsA c g w → r.Misfits x.type.typeName g w →
      Decides s wanted p name c
        (.error (.familyMismatch v.name name x.type.typeName w.name))
  | attached (v : Record) (x : Field) (g : Family) (w : Record) : s.Offers wanted p name v x →
      s.Unowned c → ¬ s.Up p c → s.IsA c g w → ¬ r.Misfits x.type.typeName g w →
      Decides s wanted p name c (.ok ())

/-- Every live node is of a variant of the registry. -/
theorem OK.exists_isA (hs : s.OK) (hc : r.Consistent) {h : Handle} {n : Node r}
    (hn : s.get? h = some n) : ∃ f v, s.IsA h f v := by
  obtain ⟨f, v, hshape, -⟩ := hs.shape h n hn
  obtain ⟨hf, hv⟩ := mem_of_shape hc hshape
  exact ⟨f, v, hf, hv, n, hn, hshape⟩

/-- **Every attempt has an answer.** -/
theorem OK.exists_decides (hs : s.OK) (hc : r.Consistent) (wanted : Ownership) (p : Handle)
    (name : String) (c : Handle) : ∃ x, s.Decides wanted p name c x := by
  cases hp : s.get? p with
  | none => exact ⟨_, .staleParent hp⟩
  | some n =>
    obtain ⟨f, v, hv⟩ := hs.exists_isA hc hp
    by_cases hx : ∃ x, f.Locates v name x
    case neg =>
      -- nothing hides the fields of the base record, so none of them has this name either
      have hown : ∀ x ∈ v.fields, x.name ≠ name := fun x hx' hname => hx ⟨x, hname, .inl hx'⟩
      exact ⟨_, .unknownField f v hv hown fun x hx' hname => hx ⟨x, hname, .inr ⟨hx', hown⟩⟩⟩
    obtain ⟨x, hx⟩ := hx
    by_cases hw : x.ownership = wanted
    case neg => exact ⟨_, .otherOwnership v x ⟨f, hv, hx⟩ hw⟩
    have hoffer : s.Offers wanted p name v x := ⟨⟨f, hv, hx⟩, hw⟩
    cases hm : s.get? c with
    | none => exact ⟨_, .staleChild v x hoffer hm⟩
    | some m =>
      cases ho : m.owner with
      | some q => exact ⟨_, .alreadyOwned v x hoffer ⟨m, q, hm, ho⟩⟩
      | none =>
        by_cases hup : s.Up p c
        · exact ⟨_, .cycle v x hoffer ⟨m, hm, ho⟩ hup⟩
        obtain ⟨g, w, hg⟩ := hs.exists_isA hc hm
        by_cases hfit : r.Misfits x.type.typeName g w
        · exact ⟨_, .misfit v x g w hoffer ⟨m, hm, ho⟩ hup hg hfit⟩
        · exact ⟨_, .attached v x g w hoffer ⟨m, hm, ho⟩ hup hg hfit⟩

/-! ### What the checks answer -/

/-- The place of a field is looked up among the fields of the variant. -/
theorem IsA.place_eq {h : Handle} {f : Family} {v : Record} (hv : s.IsA h f v) (name : String) :
    ∃ n, s.place h name =
      match f.nodeField? v name with
      | some (x, i) => .ok ⟨n, v, x, i⟩
      | none => .error (.unknownField v.name name) := by
  obtain ⟨n, hn, hshape⟩ := hv.live
  refine ⟨n, ?_⟩
  unfold place
  rw [node_eq_ok_iff.2 hn, ok_bind, hshape, ok_bind]
  rfl

theorem HasField.exists_place (hc : r.Consistent) {p : Handle} {name : String} {v : Record}
    {x : Field} (hx : s.HasField p name v x) :
    ∃ q, s.place p name = .ok q ∧ q.variant = v ∧ q.field = x ∧ x.name = name := by
  obtain ⟨f, hv, hloc⟩ := hx
  obtain ⟨n, hplace⟩ := hv.place_eq name
  obtain ⟨i, hi⟩ := (hc.locates_iff hv.family hv.variant name x).1 hloc
  rw [hi] at hplace
  exact ⟨_, hplace, rfl, rfl, hloc.1⟩

/-- The checks after the field was found. -/
theorem Offers.attachPlace_eq (hc : r.Consistent) {wanted : Ownership} {p : Handle} {name : String}
    {v : Record} {x : Field} (hx : s.Offers wanted p name v x) (c : Handle) :
    (s.attachPlace wanted p name c).map (fun _ => ()) =
      s.node c >>= fun n =>
        if n.owner.isSome then .error (.alreadyOwned c.index)
        else if c ∈ s.lineage p then .error (.ownershipCycle c.index)
        else n.shape >>= fun (g, w) =>
          if r.holds x.type.typeName g w then .ok ()
          else .error (.familyMismatch v.name name x.type.typeName w.name) := by
  obtain ⟨q, hq, rfl, rfl, hname⟩ := hx.field.exists_place hc
  rw [Store.attachPlace_eq, hq, ok_bind, if_neg (not_not.2 hx.ownership), hname]
  cases s.node c with
  | error e => rfl
  | ok n =>
    rw [ok_bind, ok_bind]
    split_ifs
    · rfl
    · rfl
    · cases n.shape with
      | error e => rfl
      | ok shape =>
        obtain ⟨g, w⟩ := shape
        rw [ok_bind, ok_bind]
        simp only
        split_ifs <;> rfl

/-- The check of the type is the last one. -/
theorem Offers.attachPlace_unowned (hc : r.Consistent) {wanted : Ownership} {p c : Handle}
    {name : String} {v w : Record} {g : Family} {x : Field} (hx : s.Offers wanted p name v x)
    (hroot : s.Unowned c) (hup : c ∉ s.lineage p) (hg : s.IsA c g w) :
    (s.attachPlace wanted p name c).map (fun _ => ()) =
      if r.holds x.type.typeName g w then .ok ()
      else .error (.familyMismatch v.name name x.type.typeName w.name) := by
  obtain ⟨n, hn, ho⟩ := hroot
  obtain ⟨m, hm, hshape⟩ := hg.live
  obtain rfl : n = m := Option.some.inj (hn.symm.trans hm)
  rw [hx.attachPlace_eq hc, node_eq_ok_iff.2 hn, ok_bind, if_neg (by simp [ho]), if_neg hup, hshape]
  rfl

/-- **The checks answer as decided.** -/
theorem OK.attachPlace_of_decides (hs : s.OK) (hc : r.Consistent) {wanted : Ownership} {p : Handle}
    {name : String} {c : Handle} {x : Except Error Unit} (hx : s.Decides wanted p name c x) :
    (s.attachPlace wanted p name c).map (fun _ => ()) = x := by
  have hlineage : ∀ {v x}, s.Offers wanted p name v x → (c ∈ s.lineage p ↔ s.Up p c) := by
    intro v x hoffer
    obtain ⟨f, ⟨-, -, n, hn, -⟩, -⟩ := hoffer.field
    exact (hs.ascends hn).lineage c
  cases hx with
  | staleParent hp =>
    rw [attachPlace_stale (node_eq_error_iff.2 ⟨hp, rfl⟩)]
    rfl
  | unknownField f v hv hown hbase =>
    obtain ⟨n, hplace⟩ := hv.place_eq name
    have hnone : f.nodeField? v name = none := by
      rw [← Option.map_eq_none_iff, f.map_nodeField?, Option.or_eq_none_iff]
      simpa using ⟨hown, hbase⟩
    rw [attachPlace_eq, hplace, hnone]
    rfl
  | otherOwnership v x hfield hne =>
    obtain ⟨q, hq, rfl, rfl, rfl⟩ := hfield.exists_place hc
    rw [attachPlace_eq, hq, ok_bind, if_pos hne]
    rfl
  | staleChild v x hoffer hm =>
    rw [hoffer.attachPlace_eq hc, node_eq_error_iff.2 ⟨hm, rfl⟩, error_bind]
  | alreadyOwned v x hoffer howned =>
    obtain ⟨n, owner, hn, ho⟩ := howned
    rw [hoffer.attachPlace_eq hc, node_eq_ok_iff.2 hn, ok_bind, if_pos (by simp [ho])]
  | cycle v x hoffer hroot hup =>
    obtain ⟨n, hn, ho⟩ := hroot
    rw [hoffer.attachPlace_eq hc, node_eq_ok_iff.2 hn, ok_bind, if_neg (by simp [ho]),
      if_pos ((hlineage hoffer).2 hup)]
  | misfit v x g w hoffer hroot hup hg hfit =>
    rw [hoffer.attachPlace_unowned hc hroot (mt (hlineage hoffer).1 hup) hg, if_neg]
    exact (hc.misfits_iff_not_holds hg.family hg.variant).1 hfit
  | attached v x g w hoffer hroot hup hg hfit =>
    rw [hoffer.attachPlace_unowned hc hroot (mt (hlineage hoffer).1 hup) hg, if_pos]
    exact not_not.1 (mt (hc.misfits_iff_not_holds hg.family hg.variant).2 hfit)

/-- The checks give one answer, so it is the one that is decided. -/
theorem OK.attachPlace_iff (hs : s.OK) (hc : r.Consistent) {wanted : Ownership} {p : Handle}
    {name : String} {c : Handle} {x : Except Error Unit} :
    (s.attachPlace wanted p name c).map (fun _ => ()) = x ↔ s.Decides wanted p name c x := by
  refine ⟨?_, hs.attachPlace_of_decides hc⟩
  rintro rfl
  obtain ⟨x, hx⟩ := hs.exists_decides hc wanted p name c
  rwa [hs.attachPlace_of_decides hc hx]

/-- Whether an action is performed, and why not. -/
def verdict (s : Store r) (a : Action) : Except Error Unit :=
  (s.perform a).1.map fun _ => ()

/-- After the checks there is nothing left for which a child is refused. -/
theorem OK.verdict_setChild (hs : s.OK) (p : Handle) (name : String) (c : Handle) :
    s.verdict (.setChild p name c) = (s.attachPlace .child p name c).map fun _ => () := by
  unfold verdict
  rw [perform_setChild]
  cases hq : s.attachPlace .child p name c with
  | error e => rfl
  | ok q =>
    obtain ⟨previous, hslot⟩ := hs.child_of_attachPlace hq
    simp only [hslot]
    rfl

theorem OK.verdict_pushChild (hs : s.OK) (p : Handle) (name : String) (c : Handle) :
    s.verdict (.pushChild p name c) = (s.attachPlace .sequence p name c).map fun _ => () := by
  unfold verdict
  rw [perform_pushChild]
  cases hq : s.attachPlace .sequence p name c with
  | error e => rfl
  | ok q =>
    obtain ⟨nodes, hslot⟩ := hs.children_of_attachPlace hq
    simp only [hslot]
    rfl

/-- **Attempts to attach a child.** After every run of actions over a built registry, an attempt is
answered as `Decides` says, for all handles and all names of fields: it is refused for the first
reason that applies, and succeeds if there is none. The way up from a live node ends, and the search
for a child on it never meets a stale owner. -/
theorem attachments_decided {src : Source} (hr : src.build = .ok r) (actions : List Action) :
    let s := ((empty : Store r).run actions).2
    (∀ p name c x, s.verdict (.setChild p name c) = x ↔ s.Decides .child p name c x) ∧
      (∀ p name c x, s.verdict (.pushChild p name c) = x ↔ s.Decides .sequence p name c x) ∧
      ∀ p, s.contains p → s.Ascends p := by
  intro s
  obtain ⟨-, hc⟩ := Source.declares_of_build hr
  have hs : s.OK := ok_run r actions
  refine ⟨fun p name c x => ?_, fun p name c x => ?_, fun p hp => ?_⟩
  · rw [hs.verdict_setChild]
    exact hs.attachPlace_iff hc
  · rw [hs.verdict_pushChild]
    exact hs.attachPlace_iff hc
  · obtain ⟨n, hn⟩ := Option.isSome_iff_exists.1 hp
    exact hs.ascends hn

/-- Two calls, the first of which is an argument of the second. -/
def nestedCalls : List Action :=
  [.allocate "Call" 1, .allocate "Call" 2, .pushChild ⟨1, 0⟩ "arguments" ⟨0, 0⟩]

/-- The outer call cannot become an argument of the inner one, which has it above. -/
theorem attachments_decided_nestedCalls :
    callSource.build = .ok callRegistry ∧
      ((empty : Store callRegistry).run nestedCalls).2.verdict
        (.pushChild ⟨0, 0⟩ "arguments" ⟨1, 0⟩) = .error (.ownershipCycle 1) ∧
      ((empty : Store callRegistry).run nestedCalls).2.climb ⟨1, 0⟩ ⟨0, 0⟩ =
        some (.error (.ownershipCycle 1)) := by
  have hinner : ((empty : Store callRegistry).run nestedCalls).2.IsA ⟨0, 0⟩ callFamily callVariant :=
    ⟨List.mem_singleton_self _, List.mem_cons_of_mem _ List.mem_cons_self, _, rfl, by decide +kernel⟩
  have hfield : callFamily.Locates callVariant "arguments" ⟨.value "ExprArray", "arguments"⟩ :=
    ⟨rfl, .inl (by decide)⟩
  have hoffer : ((empty : Store callRegistry).run nestedCalls).2.Offers .sequence ⟨0, 0⟩ "arguments"
      callVariant ⟨.value "ExprArray", "arguments"⟩ :=
    ⟨⟨callFamily, hinner, hfield⟩, by decide +kernel⟩
  have hup : ((empty : Store callRegistry).run nestedCalls).2.Up ⟨0, 0⟩ ⟨1, 0⟩ :=
    Relation.ReflTransGen.single (by decide +kernel)
  obtain ⟨-, hpush, hway⟩ := attachments_decided build_callSource nestedCalls
  have hcycle := (hpush _ _ _ _).2 (.cycle callVariant _ hoffer ⟨_, rfl, rfl⟩ hup)
  exact ⟨build_callSource, hcycle, ((hway ⟨0, 0⟩ (by decide +kernel)).meets _).2 hup⟩

end Store

end NodeSchema

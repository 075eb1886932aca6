import NodeSchema.Proofs.Generated.Lookup
import NodeSchema.Proofs.Layout.Sequential

/-!
# Embedded records

A record whose first member is another record by value starts with that record: the members of the
inner one keep their places, and what follows comes after them. In the declarations unit this is so
of each variant and the base record of its family, and of each base record and the node header.

* `RecordLayout.Embeds`, `embeds_of_fresh`: **a record starts with its first member.**
* `layouts_embed`: **the layout of a variant starts with that of its base record.**
-/

namespace NodeSchema

open C

/-! ### Embedding -/

/-- The layout starts with the layout `inner` of its first member, which has the type `type`, and
`rest` are the other members. -/
structure RecordLayout.Embeds (l inner : RecordLayout) (type : TypeSpec) (rest : List Field) :
    Prop where
  members : l.fields.map (·.field) = ⟨type, headerMember⟩ :: rest
  first : l.first? = some ⟨headerMember, type, 0, inner.size, inner.align⟩
  after : ∀ p ∈ l.fields.tail, inner.size ≤ p.offset
  size : inner.size ≤ l.size
  /-- The members of the inner record have the same places in the outer one. -/
  places : ∀ p ∈ l.first?, inner.fields.map (·.shift p.offset) = inner.fields

variable {u : SourceUnit} {m : DataModel}

/-- **A record starts with its first member.** -/
theorem embeds_of_fresh {name n : String} {d : RecordDecl} {rest : List Field} {l : RecordLayout}
    (h : freshLayout u m name = .ok l) (hd : u.record? name = some d)
    (hmembers : d.members = ⟨.value n, headerMember⟩ :: rest)
    (hn : (TypeSpec.value n).typeName = n) (hinner : (u.record? n).isSome) :
    ∃ inner, freshLayout u m n = .ok inner ∧ l.Embeds inner (.value n) rest := by
  obtain ⟨d', hd', hseq⟩ := sequential_of_layout ((layoutOf_eq u m name).trans h)
  obtain rfl : d = d' := Option.some.inj (hd.symm.trans hd')
  have hfields := hseq.members
  rw [hmembers] at hfields
  obtain ⟨p, ps, hl, hp, hps⟩ := List.map_eq_cons_iff.1 hfields
  obtain ⟨htype, hname⟩ : p.type = .value n ∧ p.name = headerMember := by
    simpa [FieldLayout.field] using hp
  obtain ⟨stop, hplaces, hsize⟩ := hseq.places
  -- the first member is at 0, and the others come after its end
  rw [hl] at hplaces
  cases hplaces with
  | cons hstart hrest =>
    have hzero : p.offset = 0 := hstart.eq_zero
    have hscalar := hseq.scalars p (hl ▸ List.mem_cons_self)
    rw [htype] at hscalar
    obtain ⟨inner, hi, hscalar⟩ :=
      hscalar.exists_layout (by simp [TypeSpec.isPointer, TypeSpec.value]) (hn.symm ▸ hinner)
    rw [hn, layoutOf_eq] at hi
    obtain ⟨hps1, hps2⟩ : inner.size = p.size ∧ inner.align = p.align := by
      simpa [RecordLayout.scalar, FieldLayout.scalar] using hscalar
    rw [hzero, Nat.zero_add, ← hps1] at hrest
    have hfirst : l.first? = some ⟨headerMember, .value n, 0, inner.size, inner.align⟩ := by
      rw [RecordLayout.first?, hl, List.head?_cons, hps1, hps2, ← htype, ← hname, ← hzero]
    refine ⟨inner, hi, ?_, hfirst, ?_, ?_, ?_⟩
    · rw [hl, List.map_cons, hp, hps]
    · rw [hl]
      exact hrest.start_le
    · exact le_trans hrest.le hsize.1.2
    · rw [hfirst]
      rintro _ ⟨⟩
      simp [FieldLayout.shift]

/-! ### The declarations unit -/

variable {s : Source} {r : Registry} {o : Options}

theorem base_embeds_header (hs : s.build = .ok r) {f : Family} (hf : f ∈ r.families)
    {l : RecordLayout} (hl : freshLayout (declarationsUnit r o) m f.base.name = .ok l) :
    ∃ header, freshLayout (declarationsUnit r o) m nodeHeaderName = .ok header ∧
      l.Embeds header (.value nodeHeaderName) f.base.extraFields := by
  obtain ⟨-, hc⟩ := Source.declares_of_build hs
  exact embeds_of_fresh hl (record?_baseDecl hc hf) (hc.base_fields_eq hf)
    (typeName_value (by decide)) (by rw [record?_nodeHeader hc]; rfl)

theorem variant_embeds_base (hs : s.build = .ok r) {f : Family} (hf : f ∈ r.families) {v : Record}
    (hv : v ∈ f.variants) {l : RecordLayout}
    (hl : freshLayout (declarationsUnit r o) m v.name = .ok l) :
    ∃ base, freshLayout (declarationsUnit r o) m f.base.name = .ok base ∧
      l.Embeds base (.value f.base.name) v.fields := by
  obtain ⟨hd, hc⟩ := Source.declares_of_build hs
  exact embeds_of_fresh hl (record?_variantDecl hc hf hv) rfl
    (typeName_value (hd.isIdentifier_base hf)) (by rw [record?_baseDecl hc hf]; rfl)

/-- **Layouts embed.** Whatever an engine has been asked before, the layout of a variant starts with
that of its base record, and the layout of a base record with that of the node header. -/
theorem layouts_embed (hs : s.build = .ok r) (o : Options) (m : DataModel) (f : Family)
    (hf : f ∈ r.families) :
    (∀ v ∈ f.variants, ∀ earlier l,
      Engine.answer (declarationsUnit r o) m earlier v.name = .ok l →
      ∃ base, (∀ earlier, Engine.answer (declarationsUnit r o) m earlier f.base.name = .ok base) ∧
        l.Embeds base (.value f.base.name) v.fields) ∧
    ∀ earlier base, Engine.answer (declarationsUnit r o) m earlier f.base.name = .ok base →
      ∃ header,
        (∀ earlier, Engine.answer (declarationsUnit r o) m earlier nodeHeaderName = .ok header) ∧
        base.Embeds header (.value nodeHeaderName) f.base.extraFields := by
  simp only [Engine.answer_eq, forall_const]
  exact ⟨fun v hv l hl => variant_embeds_base hs hf hv hl, fun l hl => base_embeds_header hs hf hl⟩

/-- A family with one variant. -/
def notFamily : Family where
  group := "expr"
  base :=
    ⟨"Expr", [⟨.value nodeHeaderName, headerMember⟩, ⟨.value "int", "kind"⟩], .builtin "expr" 0⟩
  variants := [⟨"Not", [⟨.pointer "Expr", "operand"⟩], .builtin "expr" 1⟩]

/-- The registry of this family. -/
def notRegistry : Registry :=
  ⟨[], [notFamily], [⟨"NODE_NOT", "Not", 0⟩]⟩

/-- The layout of its variant. -/
def notLayout : RecordLayout :=
  ⟨"Not", [⟨headerMember, .value "Expr", 0, 32, 8⟩, ⟨"operand", .pointer "Expr", 32, 8, 8⟩], 40, 8⟩

/-- The tables that declare it. -/
def notSource : Source :=
  .ofTables [("expr", ["Expr : Node self, int kind", "Not : Expr *operand"])]

theorem layouts_embed_notFamily :
    notSource.build = .ok notRegistry ∧
    ∃ base, Engine.answer (declarationsUnit notRegistry {}) .lp64 [] "Expr" = .ok base ∧
      notLayout.Embeds base (.value "Expr") [⟨.pointer "Expr", "operand"⟩] := by
  have hs : notSource.build = .ok notRegistry := rfl
  have hl : Engine.answer (declarationsUnit notRegistry {}) .lp64 [] "Not" = .ok notLayout := by
    decide +kernel
  obtain ⟨base, hbase, hembeds⟩ :=
    (layouts_embed hs {} .lp64 notFamily List.mem_cons_self).1 _ List.mem_cons_self [] notLayout hl
  exact ⟨hs, base, hbase [], hembeds⟩

end NodeSchema

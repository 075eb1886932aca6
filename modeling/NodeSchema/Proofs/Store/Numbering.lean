import NodeSchema.Proofs.Generated.Lookup
import NodeSchema.Proofs.Registry.Numbering
import NodeSchema.Proofs.Store.Origin

/-!
# One numbering in stores

A node stores the position of its discriminator and nothing else of its variant. This is enough, as
the discriminators follow the order of the variants: what a node tells of itself is what it was made
as, for as long as it is live.

* `Tells`: what a node tells of its variant.
* `allocate_ok_iff`: nodes are made of the variants of the registry, and of nothing else.
* `tells_run`: what a node tells stays.
* `one_numbering`: the registry, the generated enum and all stores have one numbering.
-/

namespace NodeSchema.Store

open C

variable {r : Registry} {s t : Store r}

/-- What the node of `h` tells of itself: it is of the variant `v` of the family `f`, its
discriminator `tag` is at the position in the header `x`. -/
structure Tells (s : Store r) (h : Handle) (x : Header) (f : Family) (v : Record) (tag : String) :
    Prop where
  header : s.header h = .ok x
  variantName : s.variantName h = .ok v.name
  discriminator : s.discriminator h = .ok tag
  family : s.family h = .ok f

/-- All that a node tells is looked up from its header. -/
theorem tells_of_header {h : Handle} {n : Node r} {f : Family} {v : Record} {d : Discriminator}
    (hn : s.get? h = some n) (hshape : r.shape n.kind = .ok (f, v))
    (hd : r.discriminators[n.kind]? = some d) : s.Tells h n.toHeader f v d.name := by
  have hnode : s.node h = .ok n := node_eq_ok_iff.2 hn
  have hns : n.shape = .ok (f, v) := hshape
  constructor
  · rw [header, hnode]
    rfl
  · simp only [variantName, hnode, hns, bind, Except.bind]
    rfl
  · simp only [discriminator, hnode, hd, bind, Except.bind]
    rfl
  · simp only [family, hnode, hns, bind, Except.bind]
    rfl

/-- **What a node tells stays** for as long as it is live. -/
theorem OK.tells_run (hs : s.OK) {h : Handle} {x : Header} {f : Family} {v : Record}
    {n : Node r} {d : Discriminator} (hn : s.get? h = some n) (hx : n.toHeader = x)
    (hshape : r.shape x.kind = .ok (f, v)) (hd : r.discriminators[x.kind]? = some d)
    {actions : List Action} (hl : s.Stays h actions) :
    (s.run actions).2.Tells h x f v d.name := by
  obtain ⟨m, hm, hmn⟩ := hs.toHeader_run hn hl
  obtain rfl : m.toHeader = x := hmn.trans hx
  exact tells_of_header hm hshape hd

/-! ### Making nodes -/

variable (hc : r.Consistent) (hd : r.discriminators = tagsFrom 0 r.families)

include hc hd

/-- A node of a variant of the registry is made with the discriminator of this variant. -/
theorem perform_allocate_mem {f : Family} {v : Record} (hf : f ∈ r.families) (hv : v ∈ f.variants)
    (s : Store r) (line : ℕ) : ∃ k, r.discriminatorOf? v.name = some k ∧
      r.variant? v.name = some (f, v) ∧ s.perform (.allocate v.name line) =
        (.ok (.made (s.insert (.fresh f v k line)).1), (s.insert (.fresh f v k line)).2) := by
  obtain ⟨k, hk⟩ := (Registry.numbered hc hd).exists_position f hf v hv
  have hvar : r.variant? v.name = some (f, v) :=
    (hc.looksUp.variant.some_iff _ _).2 ⟨Registry.mem_variants_iff.2 ⟨hf, hv⟩, rfl⟩
  exact ⟨k, hk, hvar, by rw [perform_allocate, hvar, hk]⟩

/-- **Nodes are made of the variants of the registry**, and of nothing else. -/
theorem allocate_ok_iff (s : Store r) (name : String) (line : ℕ) :
    (∃ h t, s.perform (.allocate name line) = (.ok (.made h), t)) ↔
      ∃ f ∈ r.families, ∃ v ∈ f.variants, v.name = name := by
  constructor
  · rintro ⟨h, t, ha⟩
    rw [perform_allocate] at ha
    split at ha
    · rename_i f v kind hv _
      obtain ⟨hmem, hname⟩ := (hc.looksUp.variant.some_iff _ _).1 hv
      obtain ⟨hf, hv⟩ := Registry.mem_variants_iff.1 hmem
      exact ⟨f, hf, v, hv, hname⟩
    · cases ha
  · rintro ⟨f, hf, v, hv, rfl⟩
    obtain ⟨k, -, -, ha⟩ := perform_allocate_mem hc hd hf hv s line
    exact ⟨_, _, ha⟩

/-- A new node tells the variant that was asked for, and goes on to do so. -/
theorem OK.tells_of_allocate (hs : s.OK) {i : ℕ} {f : Family} {v : Record} {k line : ℕ} {h : Handle}
    (hf : r.families[i]? = some f) (hv : v ∈ f.variants) (hk : r.discriminatorOf? v.name = some k)
    (ha : s.perform (.allocate v.name line) = (.ok (.made h), t)) {later : List Action}
    (hl : t.Stays h later) :
    (t.run later).2.Tells h ⟨k, line⟩ f v (discriminatorName v.name) := by
  obtain ⟨k', hk', hvar, ha'⟩ := perform_allocate_mem hc hd (List.mem_of_getElem? hf) hv s line
  obtain rfl : k = k' := Option.some.inj (hk.symm.trans hk')
  have hpos := (((Registry.numbered hc hd).position i f v k hf hv).out 0 2).1 hk
  have ht : t.OK := by
    have hs' := hs.perform (.allocate v.name line)
    rwa [ha] at hs'
  rw [ha] at ha'
  cases ha'
  have hn := get?_insert hs.cells (.fresh f v k line) (s.insert (.fresh f v k line)).1
  rw [if_pos rfl] at hn
  exact ht.tells_run hn rfl (Registry.shape_of_discriminatorOf? hvar hk) hpos hl

omit hc hd

/-- **One numbering.** A built registry counts its variants in one order: their list, the
discriminators, the look-up of a discriminator and the enum of the declarations unit agree on every
position. Nodes are made of these variants only. A node in a store, after any run of actions, has the
position of its variant in its header and tells this variant, its enumerator and its family, for as
long as it is live. What is looked up in the registry is the one element of a name. -/
theorem one_numbering {src : Source} (hr : src.build = .ok r) (o : Options) :
    ∃ e, (∀ e', e' ∈ (declarationsUnit r o).enums ∧ e'.name = discriminatorEnumName ↔ e' = e) ∧
      r.Numbered e.members ∧ r.LooksUp ∧
      ∀ actions, let s := ((empty : Store r).run actions).2
        (∀ name line, (∃ h t, s.perform (.allocate name line) = (.ok (.made h), t)) ↔
          ∃ f ∈ r.families, ∃ v ∈ f.variants, v.name = name) ∧
        ∀ (i : ℕ) f v k, r.families[i]? = some f → v ∈ f.variants → r.discriminatorOf? v.name = some k →
          ∀ line h t, s.perform (.allocate v.name line) = (.ok (.made h), t) →
            ∀ later, t.Stays h later →
              ∃ tag, e.members[k]? = some tag ∧ (t.run later).2.Tells h ⟨k, line⟩ f v tag := by
  obtain ⟨hdecl, hc⟩ := Source.declares_of_build hr
  have hd := hdecl.discriminators
  have hnum := Registry.numbered hc hd
  refine ⟨r.discriminatorEnum, fun e' => ?_, hnum, hc.looksUp, fun actions => ?_⟩
  · rw [← (findsOne_enum? hc o).some_iff, enum?_discriminatorEnum hc o, Option.some.injEq, eq_comm]
  · refine ⟨fun name line => allocate_ok_iff hc hd _ name line, ?_⟩
    intro i f v k hf hv hk line h t ha later hl
    exact ⟨discriminatorName v.name, ((hnum.position i f v k hf hv).out 0 3).1 hk,
      (ok_run r actions).tells_of_allocate hc hd hf hv hk ha hl⟩

/-- A call that comes after a name, and goes on to be a call when the name becomes its callee. -/
theorem one_numbering_call :
    callSource.build = .ok callRegistry ∧ ∃ tag,
      ((empty : Store callRegistry).run callActions).2.Tells ⟨1, 0⟩ ⟨1, 2⟩ callFamily callVariant
        tag := by
  obtain ⟨e, -, -, -, hrun⟩ := one_numbering build_callSource {}
  have hv : callVariant ∈ callFamily.variants := List.mem_cons_of_mem _ List.mem_cons_self
  have hk : callRegistry.discriminatorOf? callVariant.name = some 1 := by decide
  obtain ⟨tag, -, htells⟩ := (hrun [.allocate "Name" 1]).2 0 callFamily callVariant 1 rfl hv hk
    2 ⟨1, 0⟩ _ rfl [.setChild ⟨1, 0⟩ "callee" ⟨0, 0⟩] (by decide +kernel)
  exact ⟨build_callSource, tag, htells⟩

end NodeSchema.Store

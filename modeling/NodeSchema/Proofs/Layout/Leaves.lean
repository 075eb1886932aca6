import NodeSchema.Proofs.Layout.Sequential

/-!
# Leaves of layouts

A member that is a record by value has members of its own. When all of them are laid open, down to the
members that are no records, a record becomes a list of leaves with their places in the whole. The
places of the leaves are in order, and where all alignments are powers of two each leaf is aligned as
it asks for, however deep it is: a member's alignment divides the one of its record, and the place of
the record is a multiple of that.

* `Leaves`: the leaves of members. They exist and there is one list of them.
* `layout_induction`: what holds of a layout if it holds of the layouts of its parts, holds of all.
* `Leaves.ordered`: **leaves do not overlap**, and stay inside the members they come from.
* `Leaves.aligned`: **leaves are aligned.**
* `layouts_sequential`: what every layout is, from its members down to its leaves.
-/

namespace NodeSchema

open C

variable {u : SourceUnit} {m : DataModel}

/-! ### Laying records open -/

/-- The member is a record of the unit by value. -/
def FieldLayout.IsRecord (u : SourceUnit) (p : FieldLayout) : Prop :=
  p.field.HasPart u p.type.typeName

instance (u : SourceUnit) (p : FieldLayout) : Decidable (p.IsRecord u) :=
  inferInstanceAs (Decidable (¬ p.type.isPointer ∧ p.type.typeName = p.type.typeName ∧
    (u.record? p.type.typeName).isSome))

/-- `Leaves u m base ps leaves`: the members `ps` of a record that starts at `base` have these
leaves. -/
inductive Leaves (u : SourceUnit) (m : DataModel) : ℕ → List FieldLayout → List FieldLayout → Prop
  | nil (base : ℕ) : Leaves u m base [] []
  | scalar {base : ℕ} {p : FieldLayout} {ps leaves : List FieldLayout} :
      ¬ p.IsRecord u → Leaves u m base ps leaves →
      Leaves u m base (p :: ps) (p.shift base :: leaves)
  | record {base : ℕ} {p : FieldLayout} {ps inside leaves : List FieldLayout} {l : RecordLayout} :
      p.IsRecord u → layoutOf u m p.type.typeName = .ok l →
      Leaves u m (base + p.offset) l.fields inside → Leaves u m base ps leaves →
      Leaves u m base (p :: ps) (inside ++ leaves)

theorem Leaves.unique {base : ℕ} {ps leaves others : List FieldLayout}
    (h : Leaves u m base ps leaves) (h' : Leaves u m base ps others) : leaves = others := by
  induction h generalizing others with
  | nil =>
    cases h'
    rfl
  | scalar hp _ ih =>
    cases h' with
    | scalar _ hrest => rw [ih hrest]
    | record hp' => exact (hp hp').elim
  | record hp hl _ _ ihinside ihrest =>
    cases h' with
    | scalar hp' => exact (hp' hp).elim
    | record _ hl' hinside hrest =>
      cases hl.symm.trans hl'
      rw [ihinside hinside, ihrest hrest]

/-- **Induction over layouts.** What holds of a layout if it holds of the layouts of its parts, holds
of all layouts. -/
theorem layout_induction {P : RecordLayout → Prop}
    (step : ∀ d l, Sequential u m d l →
      (∀ p ∈ l.fields, p.IsRecord u → ∃ l', layoutOf u m p.type.typeName = .ok l' ∧
        l'.scalar = p.scalar ∧ P l') → P l)
    {name : String} {l : RecordLayout} (h : layoutOf u m name = .ok l) : P l := by
  have hacc : Acc (PartOf u) name := acc_partOf_of_plain ((layoutOf_eq u m name).symm.trans h)
  induction hacc generalizing l with
  | intro name _ ih =>
    obtain ⟨d, hd, hseq⟩ := sequential_of_layout h
    refine step d l hseq fun p hp hrec => ?_
    obtain ⟨l', hl', hs⟩ := (hseq.scalars p hp).exists_layout hrec.1 hrec.2.2
    have hmem : p.field ∈ d.members := hseq.members ▸ List.mem_map_of_mem hp
    exact ⟨l', hl', hs, ih _ ⟨d, hd, p.field, hmem, hrec⟩ hl'⟩

/-- Every layout can be laid open. -/
theorem exists_leaves {name : String} {l : RecordLayout} (h : layoutOf u m name = .ok l) :
    ∀ base, ∃ leaves, Leaves u m base l.fields leaves := by
  refine layout_induction (P := fun l => ∀ base, ∃ leaves, Leaves u m base l.fields leaves) ?_ h
  intro _ l _ hparts base
  -- member by member: a record is laid open in its place
  generalize l.fields = ps at hparts
  induction ps with
  | nil => exact ⟨[], .nil base⟩
  | cons p ps ih =>
    obtain ⟨hp, hps⟩ := List.forall_mem_cons.1 hparts
    obtain ⟨leaves, hleaves⟩ := ih hps
    by_cases hrec : p.IsRecord u
    · obtain ⟨l', hl', -, hinner⟩ := hp hrec
      obtain ⟨inside, hinside⟩ := hinner (base + p.offset)
      exact ⟨inside ++ leaves, .record hrec hl' hinside hleaves⟩
    · exact ⟨p.shift base :: leaves, .scalar hrec hleaves⟩

/-! ### Order -/

/-- A member that is a record of the unit has the size and the alignment of its layout. -/
theorem ScalarOf.scalar_eq {p : FieldLayout} {l : RecordLayout} (h : ScalarOf u m p.type p.scalar)
    (hp : p.IsRecord u) (hl : layoutOf u m p.type.typeName = .ok l) :
    l.size = p.size ∧ l.align = p.align := by
  obtain ⟨l', hl', hs⟩ := h.exists_layout hp.1 hp.2.2
  cases hl.symm.trans hl'
  simpa [RecordLayout.scalar, FieldLayout.scalar] using hs

/-- The end of a member. -/
def FieldLayout.stop (p : FieldLayout) : ℕ :=
  p.offset + p.size

/-- **Leaves do not overlap.** The leaves of members that follow one another are in order, and lie
between the start of the first member and the end of the last one. -/
theorem Leaves.ordered {base start stop : ℕ} {ps leaves : List FieldLayout}
    (h : Leaves u m base ps leaves) (hs : ∀ p ∈ ps, ScalarOf u m p.type p.scalar)
    (hps : Consecutive start ps stop) :
    (∀ q ∈ leaves, base + start ≤ q.offset ∧ q.stop ≤ base + stop) ∧
      leaves.Pairwise fun q q' => q.stop ≤ q'.offset := by
  induction h generalizing start stop with
  | nil => simp
  | @scalar base p ps leaves hp _ ih =>
    obtain ⟨hsp, hsps⟩ := List.forall_mem_cons.1 hs
    cases hps with
    | cons hstart hrest =>
      obtain ⟨hbounds, hpair⟩ := ih hsps hrest
      have hle := hstart.1.2
      have hend := hrest.le
      have hoffset : (p.shift base).offset = base + p.offset := rfl
      have hstop : (p.shift base).stop = base + p.offset + p.size := rfl
      refine ⟨List.forall_mem_cons.2 ⟨⟨by omega, by omega⟩, ?_⟩, List.pairwise_cons.2 ⟨?_, hpair⟩⟩
      · intro q hq
        have hq := hbounds q hq
        omega
      · intro q hq
        have hq := hbounds q hq
        omega
  | @record base p ps inside leaves l hp hl _ _ ihinside ihrest =>
    obtain ⟨hsp, hsps⟩ := List.forall_mem_cons.1 hs
    obtain ⟨d, -, hseq⟩ := sequential_of_layout hl
    obtain ⟨stop', hplaces, hround⟩ := hseq.places
    cases hps with
    | cons hstart hrest =>
      obtain ⟨hbounds, hpair⟩ := ihrest hsps hrest
      obtain ⟨hinside, hpair'⟩ := ihinside hseq.scalars hplaces
      have hle := hstart.1.2
      have hend := hrest.le
      -- the leaves of the record lie before its end, and so before those of the other members
      have hsize : stop' ≤ p.size := (hsp.scalar_eq hp hl).1 ▸ hround.1.2
      refine ⟨?_, List.pairwise_append.2 ⟨hpair', hpair, ?_⟩⟩
      · intro q hq
        rcases List.mem_append.1 hq with hq | hq
        · have hq := hinside q hq
          omega
        · have hq := hbounds q hq
          omega
      · intro q hq q' hq'
        have hq := hinside q hq
        have hq' := hbounds q' hq'
        omega

/-! ### Alignment -/

/-- The alignments of all types are powers of two. -/
structure DataModel.PowersOfTwo (m : DataModel) : Prop where
  pointer : m.pointer.align.isPowerOfTwo
  enumeration : m.enumeration.align.isPowerOfTwo
  scalarOf : ∀ name, (m.scalarOf name).align.isPowerOfTwo

theorem powersOfTwo_lp64 : DataModel.lp64.PowersOfTwo where
  pointer := by decide
  enumeration := by decide
  scalarOf :=
    DataModel.scalarOf_of_forall (P := fun s => s.align.isPowerOfTwo) (by decide) (by decide)
      (by decide)

theorem dvd_of_isPowerOfTwo {a b : ℕ} (ha : a.isPowerOfTwo) (hb : b.isPowerOfTwo) (h : a ≤ b) :
    a ∣ b := by
  obtain ⟨j, rfl⟩ := ha
  obtain ⟨k, rfl⟩ := hb
  exact Nat.pow_dvd_pow 2 ((Nat.pow_le_pow_iff_right (by decide)).1 h)

/-- The alignment of a type is a power of two if that of its layout is one, where it is a record. -/
theorem ScalarOf.isPowerOfTwo (hm : m.PowersOfTwo) {type : TypeSpec} {s : Scalar}
    (h : ScalarOf u m type s)
    (hl : ∀ l, ¬ type.isPointer → (u.record? type.typeName).isSome →
      layoutOf u m type.typeName = .ok l → l.align.isPowerOfTwo) : s.align.isPowerOfTwo := by
  have hforeign : Foreign u type → s.align.isPowerOfTwo := by
    intro hf
    rw [hf.scalarOf_eq h]
    exact hm.scalarOf type.typeName
  cases h with
  | pointer => exact hm.pointer
  | record l hp hr h => exact hl l hp hr h
  | enumeration => exact hm.enumeration
  | primitive _ hf | elsewhere _ hf | fallback hf => exact hforeign hf

/-- The alignment of every record is a power of two: it is one, or that of one of its members. -/
theorem isPowerOfTwo_of_layout (hm : m.PowersOfTwo) {name : String} {l : RecordLayout}
    (h : layoutOf u m name = .ok l) : l.align.isPowerOfTwo := by
  refine layout_induction (P := fun l => l.align.isPowerOfTwo) ?_ h
  intro _ l hseq hparts
  rcases hseq.align.1 with hone | ⟨p, hp, halign⟩
  · rw [hone]
    exact Nat.isPowerOfTwo_one
  · rw [← halign]
    refine (hseq.scalars p hp).isPowerOfTwo hm fun l' hpointer hr hl' => ?_
    obtain ⟨l'', hl'', -, hpow⟩ := hparts p hp ⟨hpointer, rfl, hr⟩
    cases hl'.symm.trans hl''
    exact hpow

/-- The alignment of a member divides that of its record. -/
theorem align_dvd_of_layout (hm : m.PowersOfTwo) {name : String} {l : RecordLayout}
    (h : layoutOf u m name = .ok l) : ∀ p ∈ l.fields, p.align ∣ l.align := by
  intro p hp
  obtain ⟨d, -, hseq⟩ := sequential_of_layout h
  have hmember : p.align.isPowerOfTwo :=
    (hseq.scalars p hp).isPowerOfTwo hm fun l' _ _ hl' => isPowerOfTwo_of_layout hm hl'
  have hle : p.align ≤ l.align := hseq.align.2 (Or.inr ⟨p, hp, rfl⟩)
  exact dvd_of_isPowerOfTwo hmember (isPowerOfTwo_of_layout hm h) hle

/-- **Leaves are aligned** if the members they come from are. -/
theorem Leaves.aligned (hm : m.PowersOfTwo) {base : ℕ} {ps leaves : List FieldLayout}
    (h : Leaves u m base ps leaves) (hs : ∀ p ∈ ps, ScalarOf u m p.type p.scalar)
    (hps : ∀ p ∈ ps, p.align ∣ base + p.offset) : ∀ q ∈ leaves, q.align ∣ q.offset := by
  induction h with
  | nil => simp
  | scalar hp _ ih =>
    obtain ⟨-, hsps⟩ := List.forall_mem_cons.1 hs
    obtain ⟨hpp, hpps⟩ := List.forall_mem_cons.1 hps
    exact List.forall_mem_cons.2 ⟨hpp, ih hsps hpps⟩
  | @record base p ps inside leaves l hp hl _ _ ihinside ihrest =>
    obtain ⟨hsp, hsps⟩ := List.forall_mem_cons.1 hs
    obtain ⟨hpp, hpps⟩ := List.forall_mem_cons.1 hps
    obtain ⟨d, -, hseq⟩ := sequential_of_layout hl
    obtain ⟨stop, hplaces, -⟩ := hseq.places
    -- the record is where its own alignment wants it, and so are its members
    have hrecord : l.align ∣ base + p.offset := by
      rw [(hsp.scalar_eq hp hl).2]
      exact hpp
    have hinside : ∀ q ∈ l.fields, q.align ∣ base + p.offset + q.offset := fun q hq =>
      Nat.dvd_add (Nat.dvd_trans (align_dvd_of_layout hm hl q hq) hrecord) (hplaces.dvd_offset q hq)
    intro q hq
    rcases List.mem_append.1 hq with hq | hq
    · exact ihinside hseq.scalars hinside q hq
    · exact ihrest hsps hpps q hq

/-! ### Layouts -/

/-- **What a layout is, from its members down to its leaves.** Whatever an engine has been asked
before, a layout that it answers with is the sequential one of the first record of the name. Laid
open, the record has one list of leaves, which do not overlap and lie within its size. If the data
model has powers of two for its alignments, each leaf is aligned. -/
theorem layouts_sequential {earlier : List String} {name : String} {l : RecordLayout}
    (h : Engine.answer u m earlier name = .ok l) :
    ∃ d, u.record? name = some d ∧ Sequential u m d l ∧
      ∃ leaves, (∀ others, Leaves u m 0 l.fields others ↔ others = leaves) ∧
        (m.PowersOfTwo → ∀ q ∈ leaves, q.align ∣ q.offset) ∧
        leaves.Pairwise (fun q q' => q.stop ≤ q'.offset) ∧ ∀ q ∈ leaves, q.stop ≤ l.size := by
  have hl : layoutOf u m name = .ok l := by
    rw [layoutOf_eq, ← Engine.answer_eq u m earlier]
    exact h
  obtain ⟨d, hd, hseq⟩ := sequential_of_layout hl
  obtain ⟨stop, hplaces, hsize⟩ := hseq.places
  obtain ⟨leaves, hleaves⟩ := exists_leaves hl 0
  obtain ⟨hbounds, hpair⟩ := hleaves.ordered hseq.scalars hplaces
  refine ⟨d, hd, hseq, leaves, fun others => ⟨?_, ?_⟩, fun hm => ?_, hpair, ?_⟩
  · intro hothers
    exact hothers.unique hleaves
  · rintro rfl
    exact hleaves
  · refine hleaves.aligned hm hseq.scalars fun p hp => ?_
    rw [Nat.zero_add]
    exact hplaces.dvd_offset p hp
  · intro q hq
    have hstop := (hbounds q hq).2
    rw [Nat.zero_add] at hstop
    exact hstop.trans hsize.1.2

/-- A record that contains another one, which contains a third one. -/
def nestedUnit : SourceUnit where
  items :=
    [ .record ⟨"Outer", .tagged,
        [⟨.value "char", "tag"⟩, ⟨.value "Middle", "middle"⟩, ⟨.value "bool", "flag"⟩]⟩
      , .record ⟨"Middle", .typedef, [⟨.value "Inner", "inner"⟩, ⟨.pointer "Outer", "back"⟩]⟩
      , .record ⟨"Inner", .typedef, [⟨.value "int", "number"⟩, ⟨.value "char", "letter"⟩]⟩ ]

/-- The layout of the outermost record. -/
def nestedLayout : RecordLayout :=
  ⟨"Outer",
    [⟨"tag", .value "char", 0, 1, 1⟩, ⟨"middle", .value "Middle", 8, 16, 8⟩,
      ⟨"flag", .value "bool", 24, 1, 1⟩], 32, 8⟩

/-- Its leaves. -/
def nestedLeaves : List FieldLayout :=
  [⟨"tag", .value "char", 0, 1, 1⟩, ⟨"number", .value "int", 8, 4, 4⟩,
    ⟨"letter", .value "char", 12, 1, 1⟩, ⟨"back", .pointer "Outer", 16, 8, 8⟩,
    ⟨"flag", .value "bool", 24, 1, 1⟩]

/-- Two records down, the leaves are where their alignments want them. -/
theorem layouts_sequential_nested :
    Engine.answer nestedUnit .lp64 [] "Outer" = .ok nestedLayout ∧
      Leaves nestedUnit .lp64 0 nestedLayout.fields nestedLeaves ∧
      (∀ q ∈ nestedLeaves, q.align ∣ q.offset) ∧ ∀ q ∈ nestedLeaves, q.stop ≤ nestedLayout.size := by
  have h : Engine.answer nestedUnit .lp64 [] "Outer" = .ok nestedLayout := by decide +kernel
  obtain ⟨d, -, -, leaves, hunique, haligned, -, hsize⟩ := layouts_sequential h
  have hmiddle : layoutOf nestedUnit .lp64 "Middle" = .ok ⟨"Middle",
      [⟨"inner", .value "Inner", 0, 8, 4⟩, ⟨"back", .pointer "Outer", 8, 8, 8⟩], 16, 8⟩ := by
    decide +kernel
  have hinner : layoutOf nestedUnit .lp64 "Inner" = .ok ⟨"Inner",
      [⟨"number", .value "int", 0, 4, 4⟩, ⟨"letter", .value "char", 4, 1, 1⟩], 8, 4⟩ := by decide +kernel
  have hinside : Leaves nestedUnit .lp64 8 [⟨"number", .value "int", 0, 4, 4⟩,
      ⟨"letter", .value "char", 4, 1, 1⟩] [⟨"number", .value "int", 8, 4, 4⟩,
        ⟨"letter", .value "char", 12, 1, 1⟩] :=
    .scalar (by decide) (.scalar (by decide) (.nil 8))
  have hback : Leaves nestedUnit .lp64 8 [⟨"back", .pointer "Outer", 8, 8, 8⟩]
      [⟨"back", .pointer "Outer", 16, 8, 8⟩] :=
    .scalar (by decide) (.nil 8)
  have hflag : Leaves nestedUnit .lp64 0 [⟨"flag", .value "bool", 24, 1, 1⟩]
      [⟨"flag", .value "bool", 24, 1, 1⟩] :=
    .scalar (by decide) (.nil 0)
  have hrest := Leaves.record (p := ⟨"inner", .value "Inner", 0, 8, 4⟩)
    (by decide) hinner hinside hback
  have hleaves : Leaves nestedUnit .lp64 0 nestedLayout.fields nestedLeaves :=
    .scalar (by decide)
      (.record (p := ⟨"middle", .value "Middle", 8, 16, 8⟩) (by decide) hmiddle hrest hflag)
  obtain rfl := (hunique nestedLeaves).1 hleaves
  exact ⟨h, hleaves, haligned powersOfTwo_lp64, hsize⟩

end NodeSchema

import NodeSchema.Proofs.Layout.Cache

/-!
# Data models with alignments

A data model is aligned if each of its types has an alignment other than zero. Then every member has
one, since the alignment of a record is the largest one of its members and at least one. So no layout
fails for the want of an alignment.

* `aligned_lp64`: the data model of the reports is aligned.
* `freshLayout_ne_zeroAlignment`: **a layout fails only if a record is unknown or recursive.**
-/

namespace NodeSchema

open C

/-- No type has the alignment zero. -/
structure DataModel.Aligned (m : DataModel) : Prop where
  pointer : m.pointer.align ≠ 0
  enumeration : m.enumeration.align ≠ 0
  scalarOf : ∀ name, (m.scalarOf name).align ≠ 0

/-- What holds of all entries of a data model, and of the type for all others, holds of every type. -/
theorem DataModel.scalarOf_of_forall {P : Scalar → Prop} {m : DataModel}
    (hprimitives : ∀ x ∈ m.primitives, P x.2) (hopaques : ∀ x ∈ m.opaques, P x.2)
    (hfallback : P m.fallback) (name : String) : P (m.scalarOf name) := by
  have hentry : ∀ (l : List (String × Scalar)) s, (∀ x ∈ l, P x.2) → l.lookup name = some s →
      P s := by
    intro l s hl hs
    obtain ⟨l₁, l₂, rfl, -⟩ := List.lookup_eq_some_iff.1 hs
    exact hl (name, s) (List.mem_append_right _ List.mem_cons_self)
  unfold scalarOf
  cases hp : m.primitives.lookup name with
  | some s => exact hentry _ s hprimitives hp
  | none =>
    cases ho : m.opaques.lookup name with
    | some s => exact hentry _ s hopaques ho
    | none => exact hfallback

theorem aligned_lp64 : DataModel.lp64.Aligned where
  pointer := by decide
  enumeration := by decide
  scalarOf :=
    DataModel.scalarOf_of_forall (P := fun s => s.align ≠ 0) (by decide) (by decide) (by decide)

variable {u : SourceUnit} {m : DataModel}

/-! ### Records -/

/-- The alignment of a record does not get smaller with more members. -/
theorem Placed.align_le_addAll (p : Placed) (ms : List (Field × Scalar)) :
    p.align ≤ (p.addAll ms).align := by
  induction ms generalizing p with
  | nil => exact Nat.le_refl _
  | cons x ms ih =>
    have hadd : p.align ≤ (p.add x.1 x.2).align := Nat.le_max_left _ _
    exact Nat.le_trans hadd (ih (p.add x.1 x.2))

/-- A record that is laid out has an alignment. -/
theorem align_ne_zero_of_plain {avail : List RecordDecl} {name : String} {l : RecordLayout}
    (h : layoutPlain u m avail name = .ok l) : l.align ≠ 0 := by
  obtain ⟨r, -, -, ss, -, rfl⟩ := layoutPlain_ok_iff.1 h
  have hone : 1 ≤ (Placed.empty.addAll (r.members.zip ss)).align :=
    Placed.align_le_addAll Placed.empty _
  exact Nat.ne_of_gt hone

/-! ### Failures -/

section

variable {layout : String → Except LayoutError RecordLayout}

/-- Every record that is laid out has an alignment, and none lacks a layout for the want of one. -/
def LaysOut (layout : String → Except LayoutError RecordLayout) : Prop :=
  ∀ name, layout name ≠ .error .zeroAlignment ∧ ∀ l, layout name = .ok l → l.align ≠ 0

/-- A type has an alignment, if the records that are laid out have one. -/
theorem scalarPlain_aligned (hm : m.Aligned) (hl : LaysOut layout) (type : TypeSpec) :
    scalarPlain u m layout type ≠ .error .zeroAlignment ∧
      ∀ s, scalarPlain u m layout type = .ok s → s.align ≠ 0 := by
  have hok {s : Scalar} (hs : s.align ≠ 0) :
      (Except.ok s : Except LayoutError Scalar) ≠ .error .zeroAlignment ∧
        ∀ s', Except.ok s = (.ok s' : Except LayoutError Scalar) → s'.align ≠ 0 := by
    constructor
    · rintro ⟨⟩
    · rintro _ ⟨⟩
      exact hs
  unfold scalarPlain
  split_ifs
  · exact hok hm.pointer
  · obtain ⟨hne, hlayout⟩ := hl type.typeName
    cases h : layout type.typeName with
    | ok l => exact hok (hlayout l h)
    | error e =>
      refine ⟨?_, fun s hs => by cases hs⟩
      rintro ⟨⟩
      exact hne h
  · exact hok hm.enumeration
  · exact hok (hm.scalarOf type.typeName)

theorem placePlain_ne_zeroAlignment (hm : m.Aligned) (hl : LaysOut layout) (p : Placed) (f : Field) :
    placePlain u m layout p f ≠ .error .zeroAlignment := by
  obtain ⟨hne, halign⟩ := scalarPlain_aligned (u := u) hm hl f.type
  intro h
  rcases bind_eq_error.1 h with h | ⟨s, hs, h⟩
  · exact hne h
  · rw [if_neg (halign s hs)] at h
    cases h

theorem foldlM_placePlain_ne_zeroAlignment (hm : m.Aligned) (hl : LaysOut layout) (p : Placed)
    (fs : List Field) : fs.foldlM (placePlain u m layout) p ≠ .error .zeroAlignment := by
  induction fs generalizing p with
  | nil =>
    rw [List.foldlM_nil]
    rintro ⟨⟩
  | cons f fs ih =>
    rw [List.foldlM_cons]
    intro h
    rcases bind_eq_error.1 h with h | ⟨q, -, h⟩
    · exact placePlain_ne_zeroAlignment hm hl p f h
    · exact ih q h

end

theorem layoutPlain_ne_zeroAlignment (hm : m.Aligned) (avail : List RecordDecl) (name : String) :
    layoutPlain u m avail name ≠ .error .zeroAlignment := by
  induction hk : avail.length using Nat.strongRecOn generalizing avail name with
  | ind k ih =>
    rw [layoutPlain]
    cases u.record? name with
    | none => simp
    | some r =>
      simp only
      split_ifs with ha
      · have hlt := hk ▸ length_otherRecords_lt ha
        have hl : LaysOut (layoutPlain u m (otherRecords avail name)) := fun n =>
          ⟨ih _ hlt _ n rfl, fun l h => align_ne_zero_of_plain h⟩
        intro h
        rw [bind_pure_eq_error] at h
        exact foldlM_placePlain_ne_zeroAlignment hm hl _ _ h
      · simp

/-- **A layout fails only if a record is unknown or recursive.** -/
theorem freshLayout_ne_zeroAlignment (hm : m.Aligned) (name : String) :
    freshLayout u m name ≠ .error .zeroAlignment :=
  layoutPlain_ne_zeroAlignment hm u.records name

end NodeSchema

import NodeSchema.Proofs.Layout.Aligned
import Mathlib.Order.Bounds.Basic

/-!
# Sequential layouts

The layout of a record is said without its computation: the members follow one another, each at the
first place after the one before that is aligned for it, and the record ends at the first place that
is aligned for all of them.

* `RoundsUp`: the least multiple of an alignment from a place on. `alignTo` computes it.
* `Consecutive`: members that follow one another.
* `ScalarOf`: the size and the alignment of a type, by what the unit and the data model say about it.
* `sequential_of_layout`: **every layout is sequential.**
-/

namespace NodeSchema

open C

/-! ### Rounding up -/

/-- `n` is the least multiple of `align` that is not below `offset`. -/
def RoundsUp (offset align n : ℕ) : Prop :=
  IsLeast {k | align ∣ k ∧ offset ≤ k} n

theorem le_alignTo (offset : ℕ) {align : ℕ} (h : align ≠ 0) : offset ≤ alignTo offset align := by
  have hmod := Nat.mod_lt (offset + align - 1) (Nat.pos_of_ne_zero h)
  have hdiv := Nat.div_add_mod' (offset + align - 1) align
  unfold alignTo
  omega

theorem RoundsUp.eq_zero {align n : ℕ} (h : RoundsUp 0 align n) : n = 0 :=
  Nat.le_zero.1 (h.2 ⟨Nat.dvd_zero align, le_rfl⟩)

/-- Aligning an offset rounds it up. -/
theorem roundsUp_alignTo (offset : ℕ) {align : ℕ} (h : align ≠ 0) :
    RoundsUp offset align (alignTo offset align) := by
  refine ⟨⟨Nat.dvd_mul_left _ _, le_alignTo offset h⟩, ?_⟩
  rintro k ⟨⟨j, rfl⟩, hk⟩
  -- a smaller number of alignments ends before the offset
  have hlt : (offset + align - 1) / align < j + 1 := by
    rw [Nat.div_lt_iff_lt_mul (Nat.pos_of_ne_zero h), Nat.add_mul, Nat.mul_comm j]
    omega
  unfold alignTo
  rw [Nat.mul_comm align]
  exact Nat.mul_le_mul_right align (Nat.le_of_lt_succ hlt)

/-! ### Placing members -/

namespace FieldLayout

/-- The member that has this place. -/
def field (p : FieldLayout) : Field :=
  ⟨p.type, p.name⟩

/-- The size and the alignment of a member. -/
def scalar (p : FieldLayout) : Scalar :=
  ⟨p.size, p.align⟩

/-- The place of a member of a record that itself starts at an offset. -/
def shift (p : FieldLayout) (offset : ℕ) : FieldLayout :=
  { p with offset := offset + p.offset }

end FieldLayout

/-- The members follow one another from `start` on, each of them at the first place that is aligned
for it, and the last one ends at `stop`. -/
inductive Consecutive : ℕ → List FieldLayout → ℕ → Prop
  | nil (start : ℕ) : Consecutive start [] start
  | cons {start stop : ℕ} {p : FieldLayout} {ps : List FieldLayout} :
      RoundsUp start p.align p.offset → Consecutive (p.offset + p.size) ps stop →
      Consecutive start (p :: ps) stop

theorem Consecutive.le {start stop : ℕ} {ps : List FieldLayout} (h : Consecutive start ps stop) :
    start ≤ stop := by
  induction h with
  | nil => exact le_rfl
  | cons hp _ ih =>
    have hle := hp.1.2
    omega

theorem Consecutive.start_le {start stop : ℕ} {ps : List FieldLayout}
    (h : Consecutive start ps stop) : ∀ p ∈ ps, start ≤ p.offset := by
  induction h with
  | nil => simp
  | cons hp _ ih =>
    intro q hq
    have hle := hp.1.2
    rcases List.mem_cons.1 hq with rfl | hq
    · exact hle
    · have := ih q hq
      omega

/-- Every member is at an offset that its alignment divides. -/
theorem Consecutive.dvd_offset {start stop : ℕ} {ps : List FieldLayout}
    (h : Consecutive start ps stop) : ∀ p ∈ ps, p.align ∣ p.offset := by
  induction h with
  | nil => simp
  | cons hp _ ih => exact List.forall_mem_cons.2 ⟨hp.1.1, ih⟩

/-- The alignment of placed members is the largest one of them. -/
def LargestAlign (start : ℕ) (ps : List FieldLayout) (align : ℕ) : Prop :=
  IsGreatest (insert start {a | ∃ p ∈ ps, p.align = a}) align

/-- **Members are placed one after the other**, and the largest alignment is kept. -/
theorem Placed.addAll_spec (p : Placed) {ms : List (Field × Scalar)} (h : ∀ x ∈ ms, x.2.align ≠ 0) :
    ∃ new, (p.addAll ms).fields = p.fields ++ new ∧ new.map (fun q => (q.field, q.scalar)) = ms ∧
      Consecutive p.stop new (p.addAll ms).stop ∧ LargestAlign p.align new (p.addAll ms).align := by
  induction ms generalizing p with
  | nil =>
    refine ⟨[], (List.append_nil _).symm, rfl, .nil _, ?_⟩
    simp [LargestAlign, addAll]
  | cons x ms ih =>
    obtain ⟨f, s⟩ := x
    obtain ⟨hs, hms⟩ := List.forall_mem_cons.1 h
    obtain ⟨new, hfields, hmap, hplaces, hmem, hbound⟩ := ih (p.add f s) hms
    refine ⟨⟨f.name, f.type, alignTo p.stop s.align, s.size, s.align⟩ :: new, ?_, ?_, ?_, ?_, ?_⟩
    · exact hfields.trans (List.append_cons ..).symm
    · rw [List.map_cons, hmap]
      rfl
    · exact .cons (roundsUp_alignTo p.stop hs) hplaces
    -- the new alignment is the larger one of two, and each of these is among the alignments
    · have hadd : (p.add f s).align = max p.align s.align := rfl
      rw [hadd] at hmem
      rcases hmem with hmax | ⟨q, hq, hqa⟩
      · rcases le_total s.align p.align with hle | hle
        · exact Or.inl (hmax.trans (max_eq_left hle))
        · exact Or.inr ⟨_, List.mem_cons_self, (hmax.trans (max_eq_right hle)).symm⟩
      · exact Or.inr ⟨q, List.mem_cons_of_mem _ hq, hqa⟩
    · have hmax : max p.align s.align ≤ ((p.add f s).addAll ms).align := hbound (Or.inl rfl)
      rintro a (rfl | ⟨q, hq, rfl⟩)
      · exact le_trans (le_max_left _ _) hmax
      · rcases List.mem_cons.1 hq with rfl | hq
        · exact le_trans (le_max_right _ _) hmax
        · exact hbound (Or.inr ⟨q, hq, rfl⟩)

/-! ### Sizes and alignments of types -/

variable {u : SourceUnit} {m : DataModel}

/-- A type that is neither a pointer nor declared in the unit. -/
structure Foreign (u : SourceUnit) (type : TypeSpec) : Prop where
  value : ¬ type.isPointer
  record : u.record? type.typeName = none
  enumeration : u.enum? type.typeName = none

/-- **The size and the alignment of a type.** A pointer is a pointer to whatever it may be. A record
of the unit comes before an enum, and an enum before a type of the data model. -/
inductive ScalarOf (u : SourceUnit) (m : DataModel) (type : TypeSpec) : Scalar → Prop
  | pointer : type.isPointer → ScalarOf u m type m.pointer
  | record (l : RecordLayout) : ¬ type.isPointer → (u.record? type.typeName).isSome →
      layoutOf u m type.typeName = .ok l → ScalarOf u m type l.scalar
  | enumeration : ¬ type.isPointer → u.record? type.typeName = none →
      (u.enum? type.typeName).isSome → ScalarOf u m type m.enumeration
  | primitive (s : Scalar) : Foreign u type → m.primitives.lookup type.typeName = some s →
      ScalarOf u m type s
  | elsewhere (s : Scalar) : Foreign u type → m.primitives.lookup type.typeName = none →
      m.opaques.lookup type.typeName = some s → ScalarOf u m type s
  | fallback : Foreign u type → m.primitives.lookup type.typeName = none →
      m.opaques.lookup type.typeName = none → ScalarOf u m type m.fallback

/-- What the data model says about a type that is foreign to the unit. -/
theorem Foreign.scalarOf {type : TypeSpec} (h : Foreign u type) :
    ScalarOf u m type (m.scalarOf type.typeName) := by
  unfold DataModel.scalarOf
  cases hp : m.primitives.lookup type.typeName with
  | some s => exact .primitive s h hp
  | none =>
    cases ho : m.opaques.lookup type.typeName with
    | some s => exact .elsewhere s h hp ho
    | none => exact .fallback h hp ho

theorem HasScalar.scalarOf {f : Field} {s : Scalar} (h : HasScalar u m (freshLayout u m) f s) :
    ScalarOf u m f.type s := by
  have hs := h.1
  unfold scalarPlain at hs
  split_ifs at hs with hp hr he
  · cases hs
    exact .pointer hp
  · obtain ⟨l, hl, rfl⟩ := map_eq_ok.1 hs
    exact .record l hp hr ((layoutOf_eq u m _).trans hl)
  · cases hs
    exact .enumeration hp (Option.not_isSome_iff_eq_none.1 hr) he
  · cases hs
    exact Foreign.scalarOf
      ⟨hp, Option.not_isSome_iff_eq_none.1 hr, Option.not_isSome_iff_eq_none.1 he⟩

theorem Foreign.scalarOf_eq {type : TypeSpec} {s : Scalar} (h : Foreign u type)
    (hs : ScalarOf u m type s) : s = m.scalarOf type.typeName := by
  have hr : ¬ (u.record? type.typeName).isSome := by simp [h.record]
  have he : ¬ (u.enum? type.typeName).isSome := by simp [h.enumeration]
  cases hs with
  | pointer hp => exact (h.value hp).elim
  | record l _ hr' _ => exact (hr hr').elim
  | enumeration _ _ he' => exact (he he').elim
  | primitive _ _ hp => simp [DataModel.scalarOf, hp]
  | elsewhere _ _ hp ho => simp [DataModel.scalarOf, hp, ho]
  | fallback _ hp ho => simp [DataModel.scalarOf, hp, ho]

/-- A member that is a record by value has the size and the alignment of its layout. -/
theorem ScalarOf.exists_layout {type : TypeSpec} {s : Scalar} (h : ScalarOf u m type s)
    (htype : ¬ type.isPointer) (hr : (u.record? type.typeName).isSome) :
    ∃ l, layoutOf u m type.typeName = .ok l ∧ l.scalar = s := by
  have hnone : ¬ u.record? type.typeName = none := fun h => by simp [h] at hr
  cases h with
  | pointer hp => exact (htype hp).elim
  | record l _ _ hl => exact ⟨l, hl, rfl⟩
  | enumeration _ hno _ => exact (hnone hno).elim
  | primitive _ hf _ | elsewhere _ hf _ _ | fallback hf _ _ => exact (hnone hf.record).elim

/-! ### Records -/

/-- **The layout of a record is sequential.** It lists the members in their order, each with the size
and the alignment of its type. The members follow one another from the start of the record, the
alignment is the largest one and at least one, and the size rounds the end up to it. -/
structure Sequential (u : SourceUnit) (m : DataModel) (d : RecordDecl) (l : RecordLayout) :
    Prop where
  name : l.name = d.name
  members : l.fields.map (·.field) = d.members
  scalars : ∀ p ∈ l.fields, ScalarOf u m p.type p.scalar
  places : ∃ stop, Consecutive 0 l.fields stop ∧ RoundsUp stop l.align l.size
  align : LargestAlign 1 l.fields l.align

theorem name_of_record? {name : String} {d : RecordDecl} (h : u.record? name = some d) :
    d.name = name := by
  have hname := List.find?_some h
  simpa using hname

/-- **Every layout is sequential.** -/
theorem sequential_of_layout {name : String} {l : RecordLayout} (h : layoutOf u m name = .ok l) :
    ∃ d, u.record? name = some d ∧ Sequential u m d l := by
  rw [layoutOf_eq] at h
  have halign := align_ne_zero_of_plain h
  obtain ⟨d, hd, ss, hss, rfl⟩ := freshLayout_ok_iff.1 h
  have hscalar : ∀ x ∈ d.members.zip ss, HasScalar u m (freshLayout u m) x.1 x.2 :=
    fun _ hx => (List.forall₂_iff_zip.1 hss).2 hx
  obtain ⟨new, hfields, hmap, hplaces, hlargest⟩ :=
    Placed.empty.addAll_spec fun x hx => (hscalar x hx).2
  -- all members of the record are new
  have hnew : ((Placed.empty.addAll (d.members.zip ss)).finish name).fields = new :=
    hfields.trans (List.nil_append new)
  refine ⟨d, hd, (name_of_record? hd).symm, ?_, ?_, ?_, ?_⟩
  · have hfst := congrArg (List.map Prod.fst) hmap
    rw [List.map_map, List.map_fst_zip hss.length_eq.le] at hfst
    rw [hnew]
    exact hfst
  · intro p hp
    rw [hnew] at hp
    have hmem : (p.field, p.scalar) ∈ d.members.zip ss := hmap ▸ List.mem_map_of_mem hp
    exact (hscalar _ hmem).scalarOf
  · rw [hnew]
    exact ⟨_, hplaces, roundsUp_alignTo _ halign⟩
  · rw [hnew]
    exact hlargest

end NodeSchema

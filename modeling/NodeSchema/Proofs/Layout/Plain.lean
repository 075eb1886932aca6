import NodeSchema.Layout.Engine
import NodeSchema.Proofs.Except
import Mathlib.Logic.Relation

/-!
# Layouts without a cache

`layoutPlain` lays out a record as `layoutWithin` does, but it remembers nothing. What it gives
does not depend on the records that are being laid out, so a layout follows from those of the parts.

* `PartOf`: a record is contained by value in another one.
* `acc_partOf_of_plain`: the parts of a record that has a layout are well founded.
* `layoutPlain_mono`: a layout does not depend on the records that are open.
* `freshLayout_ok_iff`: **the layout of a record from the layouts of its parts.**
-/

namespace NodeSchema

open C Relation

variable {u : SourceUnit} {m : DataModel}

/-! ### The computation -/

/-- The size and the alignment of a member, where `layout` lays out the records of the unit. -/
def scalarPlain (u : SourceUnit) (m : DataModel) (layout : String → Except LayoutError RecordLayout)
    (type : TypeSpec) : Except LayoutError Scalar :=
  if type.isPointer then .ok m.pointer
  else if (u.record? type.typeName).isSome then (layout type.typeName).map RecordLayout.scalar
  else if (u.enum? type.typeName).isSome then .ok m.enumeration
  else .ok (m.scalarOf type.typeName)

/-- Places one more member. -/
def placePlain (u : SourceUnit) (m : DataModel) (layout : String → Except LayoutError RecordLayout)
    (p : Placed) (member : Field) : Except LayoutError Placed := do
  let s ← scalarPlain u m layout member.type
  if s.align = 0 then throw .zeroAlignment
  return p.add member s

/-- The layout of a record, where `avail` holds the records that are not being laid out. -/
def layoutPlain (u : SourceUnit) (m : DataModel) (avail : List RecordDecl) (name : String) :
    Except LayoutError RecordLayout :=
  match u.record? name with
  | none => .error (.unknown name)
  | some r =>
    if _ : avail.any (·.name = name) then do
      let placed ← r.members.foldlM
        (placePlain u m (layoutPlain u m (otherRecords avail name))) Placed.empty
      return placed.finish name
    else .error (.recursive name)
termination_by avail.length
decreasing_by exact length_otherRecords_lt (by assumption)

/-- The layout of a record when no record is being laid out. -/
def freshLayout (u : SourceUnit) (m : DataModel) (name : String) :
    Except LayoutError RecordLayout :=
  layoutPlain u m u.records name

/-! ### Placing members -/

/-- Places members whose sizes and alignments are known. -/
def Placed.addAll (p : Placed) (ms : List (Field × Scalar)) : Placed :=
  ms.foldl (fun p (f, s) => p.add f s) p

/-- The size and the alignment of a member, with which an offset can be computed. -/
def HasScalar (u : SourceUnit) (m : DataModel) (layout : String → Except LayoutError RecordLayout)
    (f : Field) (s : Scalar) : Prop :=
  scalarPlain u m layout f.type = .ok s ∧ s.align ≠ 0

theorem placePlain_ok_iff {layout : String → Except LayoutError RecordLayout} {p q : Placed}
    {f : Field} :
    placePlain u m layout p f = .ok q ↔ ∃ s, HasScalar u m layout f s ∧ q = p.add f s := by
  unfold placePlain HasScalar
  rw [bind_eq_ok]
  simp only [and_assoc]
  refine exists_congr fun s => and_congr_right fun _ => ?_
  by_cases hs : s.align = 0
  · simp [hs, throw, throwThe, MonadExceptOf.throw, bind, Except.bind]
  · simp [hs, pure, Except.pure, eq_comm]

theorem foldlM_placePlain_ok_iff {layout : String → Except LayoutError RecordLayout} {p q : Placed}
    {fs : List Field} :
    fs.foldlM (placePlain u m layout) p = .ok q ↔
      ∃ ss, List.Forall₂ (HasScalar u m layout) fs ss ∧ q = p.addAll (fs.zip ss) := by
  induction fs generalizing p with
  | nil => simp [Placed.addAll, pure, Except.pure, eq_comm]
  | cons f fs ih =>
    rw [List.foldlM_cons, bind_eq_ok]
    constructor
    · rintro ⟨_, h1, h⟩
      obtain ⟨s, hs, rfl⟩ := placePlain_ok_iff.1 h1
      obtain ⟨ss, hss, rfl⟩ := ih.1 h
      exact ⟨s :: ss, .cons hs hss, rfl⟩
    · rintro ⟨_, hss, rfl⟩
      obtain ⟨s, ss, hs, hss', rfl⟩ := List.forall₂_cons_left_iff.1 hss
      exact ⟨_, placePlain_ok_iff.2 ⟨s, hs, rfl⟩, ih.2 ⟨ss, hss', rfl⟩⟩

/-- **What it means that a record has a layout**, in terms of its parts. -/
theorem layoutPlain_ok_iff {avail : List RecordDecl} {name : String} {l : RecordLayout} :
    layoutPlain u m avail name = .ok l ↔
      ∃ r, u.record? name = some r ∧ avail.any (·.name = name) ∧
        ∃ ss,
          List.Forall₂ (HasScalar u m (layoutPlain u m (otherRecords avail name))) r.members ss ∧
          l = (Placed.empty.addAll (r.members.zip ss)).finish name := by
  rw [layoutPlain]
  cases u.record? name with
  | none => simp
  | some r =>
    simp only [Option.some.injEq, exists_eq_left']
    by_cases ha : avail.any (·.name = name)
    · rw [dif_pos ha, bind_eq_ok]
      simp only [ha, true_and, foldlM_placePlain_ok_iff, pure, Except.pure, Except.ok.injEq]
      constructor
      · rintro ⟨_, ⟨ss, hss, rfl⟩, rfl⟩
        exact ⟨ss, hss, rfl⟩
      · rintro ⟨ss, hss, rfl⟩
        exact ⟨_, ⟨ss, hss, rfl⟩, rfl⟩
    · simp [ha]

/-! ### Parts -/

/-- The field holds a record of the unit by value, the one of this name. -/
def Field.HasPart (f : Field) (u : SourceUnit) (n : String) : Prop :=
  ¬ f.type.isPointer ∧ f.type.typeName = n ∧ (u.record? n).isSome

/-- A record holds another one by value. -/
def PartOf (u : SourceUnit) (n name : String) : Prop :=
  ∃ r, u.record? name = some r ∧ ∃ f ∈ r.members, f.HasPart u n

theorem scalarPlain_of_hasPart {layout : String → Except LayoutError RecordLayout} {f : Field}
    {n : String} (hn : f.HasPart u n) :
    scalarPlain u m layout f.type = (layout n).map RecordLayout.scalar := by
  obtain ⟨hp, rfl, hr⟩ := hn
  rw [scalarPlain, if_neg hp, if_pos hr]

theorem HasScalar.exists_layout {layout : String → Except LayoutError RecordLayout} {f : Field}
    {s : Scalar} {n : String} (h : HasScalar u m layout f s) (hn : f.HasPart u n) :
    ∃ l, layout n = .ok l ∧ l.scalar = s :=
  map_eq_ok.1 (scalarPlain_of_hasPart hn ▸ h.1)

/-- The scalar of a member depends on the layout of its part only. -/
theorem HasScalar.of_layout {layout layout' : String → Except LayoutError RecordLayout} {f : Field}
    {s : Scalar} (h : HasScalar u m layout f s)
    (hl : ∀ n, f.HasPart u n → ∀ l, layout n = .ok l → layout' n = .ok l) :
    HasScalar u m layout' f s := by
  by_cases hn : f.HasPart u f.type.typeName
  · obtain ⟨l, hl1, hs⟩ := h.exists_layout hn
    refine ⟨?_, h.2⟩
    rw [scalarPlain_of_hasPart hn, hl _ hn l hl1, ← hs]
    rfl
  · refine ⟨?_, h.2⟩
    rw [← h.1]
    unfold scalarPlain
    by_cases hp : f.type.isPointer
    · rw [if_pos hp, if_pos hp]
    · have hr : ¬ (u.record? f.type.typeName).isSome := fun hr => hn ⟨hp, rfl, hr⟩
      rw [if_neg hp, if_neg hr, if_neg hp, if_neg hr]

theorem PartOf.isSome {n name : String} (h : PartOf u n name) : (u.record? n).isSome := by
  obtain ⟨_, _, _, _, hf⟩ := h
  exact hf.2.2

/-- The parts of a record that has a layout are well founded. -/
theorem acc_partOf_of_plain {avail : List RecordDecl} {name : String} {l : RecordLayout}
    (h : layoutPlain u m avail name = .ok l) : Acc (PartOf u) name := by
  induction hk : avail.length using Nat.strongRecOn generalizing avail name l with
  | ind k ih =>
    obtain ⟨r, hr, ha, ss, hss, -⟩ := layoutPlain_ok_iff.1 h
    constructor
    rintro n ⟨r', hr', f, hf, hn⟩
    obtain rfl : r = r' := Option.some.inj (hr.symm.trans hr')
    obtain ⟨s, -, hs⟩ := exists_of_forall₂ hss hf
    obtain ⟨l', hl', -⟩ := hs.exists_layout hn
    exact ih _ (hk ▸ length_otherRecords_lt ha) hl' rfl

theorem not_transGen_of_acc {α : Type} {r : α → α → Prop} {a : α} (h : Acc r a) :
    ¬ TransGen r a a := by
  replace h := h.transGen
  induction h with
  | intro a _ ih => exact fun ha => ih a ha ha

/-- A record is not a part of itself if it has a layout. -/
theorem not_transGen_of_plain {avail : List RecordDecl} {name : String} {l : RecordLayout}
    (h : layoutPlain u m avail name = .ok l) : ¬ TransGen (PartOf u) name name :=
  not_transGen_of_acc (acc_partOf_of_plain h)

/-! ### Open records -/

/-- The parts of a record, and the record itself, are not being laid out. -/
def Closed (u : SourceUnit) (avail : List RecordDecl) (name : String) : Prop :=
  ∀ n, ReflTransGen (PartOf u) n name → avail.any (·.name = n)

theorem any_otherRecords_iff {avail : List RecordDecl} {name n : String} :
    (otherRecords avail name).any (·.name = n) ↔ avail.any (·.name = n) ∧ n ≠ name := by
  simp only [otherRecords, List.any_eq_true, List.mem_filter, decide_eq_true_eq]
  constructor
  · rintro ⟨r, ⟨hr, hne⟩, rfl⟩
    exact ⟨⟨r, hr, rfl⟩, hne⟩
  · rintro ⟨⟨r, hr, rfl⟩, hne⟩
    exact ⟨r, ⟨hr, hne⟩, rfl⟩

theorem Closed.otherRecords {avail : List RecordDecl} {name n : String} (h : Closed u avail name)
    (hn : PartOf u n name) (hacyc : ¬ TransGen (PartOf u) name name) :
    Closed u (otherRecords avail name) n := by
  intro k hk
  refine any_otherRecords_iff.2 ⟨h k (hk.tail hn), ?_⟩
  rintro rfl
  exact hacyc (.tail' hk hn)

/-- **A layout does not depend on the records that are being laid out**, unless its parts are
among them. -/
theorem layoutPlain_mono {avail avail' : List RecordDecl} {name : String} {l : RecordLayout}
    (h : layoutPlain u m avail name = .ok l) (ha' : Closed u avail' name) :
    layoutPlain u m avail' name = .ok l := by
  induction hk : avail.length using Nat.strongRecOn generalizing avail avail' name l with
  | ind k ih =>
    have hacyc := not_transGen_of_plain h
    obtain ⟨r, hr, ha, ss, hss, rfl⟩ := layoutPlain_ok_iff.1 h
    have hmem := ha' name .refl
    refine layoutPlain_ok_iff.2 ⟨r, hr, hmem, ss, forall₂_imp_of_mem hss fun f hf s hs => ?_, rfl⟩
    refine hs.of_layout fun n hn l hl => ?_
    -- the record is no part of its parts, so it may be left out for them
    have hpart : PartOf u n name := ⟨r, hr, f, hf, hn⟩
    exact ih _ (hk ▸ length_otherRecords_lt ha) hl (ha'.otherRecords hpart hacyc) rfl

theorem any_records_iff {n : String} : u.records.any (·.name = n) ↔ (u.record? n).isSome := by
  rw [SourceUnit.record?, List.find?_isSome, List.any_eq_true]

theorem closed_records {name : String} (h : (u.record? name).isSome) :
    Closed u u.records name := by
  intro n hn
  rw [any_records_iff]
  rcases ReflTransGen.cases_head hn with rfl | ⟨k, hk, -⟩
  · exact h
  · exact hk.isSome

/-- **The layout of a record from the layouts of its parts.** -/
theorem freshLayout_ok_iff {name : String} {l : RecordLayout} :
    freshLayout u m name = .ok l ↔
      ∃ r, u.record? name = some r ∧
        ∃ ss, List.Forall₂ (HasScalar u m (freshLayout u m)) r.members ss ∧
          l = (Placed.empty.addAll (r.members.zip ss)).finish name := by
  constructor
  · intro h
    obtain ⟨r, hr, -, ss, hss, rfl⟩ := layoutPlain_ok_iff.1 h
    refine ⟨r, hr, ss, hss.imp fun f s hs => ?_, rfl⟩
    exact hs.of_layout fun n hn l hl => layoutPlain_mono hl (closed_records hn.2.2)
  · rintro ⟨r, hr, ss, hss, rfl⟩
    -- the parts have layouts, so they are well founded, and with them the record
    have hacc : Acc (PartOf u) name := by
      constructor
      rintro n ⟨r', hr', f, hf, hn⟩
      obtain rfl : r = r' := Option.some.inj (hr.symm.trans hr')
      obtain ⟨s, -, hs⟩ := exists_of_forall₂ hss hf
      obtain ⟨l, hl, -⟩ := hs.exists_layout hn
      exact acc_partOf_of_plain hl
    have hsome : (u.record? name).isSome := hr ▸ rfl
    refine layoutPlain_ok_iff.2 ⟨r, hr, any_records_iff.2 hsome, ss,
      forall₂_imp_of_mem hss fun f hf s hs => hs.of_layout fun n hn l hl => ?_, rfl⟩
    have hpart : PartOf u n name := ⟨r, hr, f, hf, hn⟩
    exact layoutPlain_mono hl
      ((closed_records hsome).otherRecords hpart (not_transGen_of_acc hacc))

end NodeSchema

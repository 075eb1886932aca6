import NodeSchema.Proofs.Layout.Search

/-!
# Records that contain themselves

A layout fails if the record is unknown, and if a record that contains itself by value is met on the
way into its parts. The records that are being laid out all contain the one that is asked for, so a
record that is met again is on a cycle of parts. The other way round, the parts of a record that has a
layout are well founded, so a cycle below a record is always met.

* `LayoutFails`: how a layout fails, one case for each way. `layoutPlain_fails` is the case split.
* `Recursive`: a record contains itself by value, directly or through others.
* `layoutPlain_recursive`: **the record that is reported contains itself.**
* `layout_outcome`: **what a question for a layout ends with**, in terms of the parts.
-/

namespace NodeSchema

open C Relation

variable {u : SourceUnit} {m : DataModel}

/-! ### How a layout fails -/

/-- How the layout of a record fails, where `avail` holds the records that are not being laid out. -/
inductive LayoutFails (u : SourceUnit) (m : DataModel) (avail : List RecordDecl) (name : String) :
    LayoutError → Prop
  | unknown : u.record? name = none → LayoutFails u m avail name (.unknown name)
  | recursive : (u.record? name).isSome → ¬ avail.any (·.name = name) →
      LayoutFails u m avail name (.recursive name)
  | zeroAlignment : LayoutFails u m avail name .zeroAlignment
  | part (n : String) (e : LayoutError) : avail.any (·.name = name) → PartOf u n name →
      layoutPlain u m (otherRecords avail name) n = .error e → LayoutFails u m avail name e

section

variable {layout : String → Except LayoutError RecordLayout}

theorem scalarPlain_eq_error {f : Field} {e : LayoutError}
    (h : scalarPlain u m layout f.type = .error e) : ∃ n, f.HasPart u n ∧ layout n = .error e := by
  unfold scalarPlain at h
  split_ifs at h with hp hr
  refine ⟨f.type.typeName, ⟨hp, rfl, hr⟩, ?_⟩
  exact map_eq_error.1 h

/-- Members cannot be placed because one of them has no alignment, or a part without a layout. -/
theorem foldlM_placePlain_eq_error {p : Placed} {fs : List Field} {e : LayoutError}
    (h : fs.foldlM (placePlain u m layout) p = .error e) :
    e = .zeroAlignment ∨ ∃ f ∈ fs, ∃ n, f.HasPart u n ∧ layout n = .error e := by
  induction fs generalizing p with
  | nil => cases h
  | cons f fs ih =>
    rw [List.foldlM_cons] at h
    rcases bind_eq_error.1 h with h | ⟨q, -, h⟩
    · rcases bind_eq_error.1 h with h | ⟨s, -, h⟩
      · exact Or.inr ⟨f, List.mem_cons_self, scalarPlain_eq_error h⟩
      · split_ifs at h
        · cases h
          exact Or.inl rfl
        · cases h
    · rcases ih h with he | ⟨g, hg, hpart⟩
      · exact Or.inl he
      · exact Or.inr ⟨g, List.mem_cons_of_mem f hg, hpart⟩

end

/-- **How a layout fails.** -/
theorem layoutPlain_fails {avail : List RecordDecl} {name : String} {e : LayoutError}
    (h : layoutPlain u m avail name = .error e) : LayoutFails u m avail name e := by
  rw [layoutPlain] at h
  cases hr : u.record? name with
  | none =>
    rw [hr] at h
    cases h
    exact .unknown hr
  | some r =>
    rw [hr] at h
    dsimp only at h
    split_ifs at h with ha
    · rw [bind_pure_eq_error] at h
      rcases foldlM_placePlain_eq_error h with rfl | ⟨f, hf, n, hn, h⟩
      · exact .zeroAlignment
      · exact .part n e ha ⟨r, hr, f, hf, hn⟩ h
    · cases h
      exact .recursive (hr ▸ rfl) ha

/-- A layout never lacks a part: the only record that can be unknown is the one asked for. -/
theorem layoutPlain_eq_unknown_iff {avail : List RecordDecl} {name n : String} :
    layoutPlain u m avail name = .error (.unknown n) ↔ n = name ∧ u.record? name = none := by
  constructor
  · intro h
    induction hk : avail.length using Nat.strongRecOn generalizing avail name with
    | ind k ih =>
      cases layoutPlain_fails h with
      | unknown hr => exact ⟨rfl, hr⟩
      | part n' _ ha hpart h =>
        obtain ⟨-, hr⟩ := ih _ (hk ▸ length_otherRecords_lt ha) h rfl
        have hsome := hpart.isSome
        rw [hr] at hsome
        cases hsome
  · rintro ⟨rfl, hr⟩
    rw [layoutPlain, hr]

/-! ### Recursion -/

/-- A record contains itself by value, directly or through others. -/
def Recursive (u : SourceUnit) (n : String) : Prop :=
  TransGen (PartOf u) n n

/-- A record is the record `name` itself, or is contained in it by value. -/
def Within (u : SourceUnit) (n name : String) : Prop :=
  ReflTransGen (PartOf u) n name

/-- **The record that is reported contains itself**, and is within the one asked for. -/
theorem layoutPlain_recursive {avail : List RecordDecl} {name n : String}
    (hopen : Enclosed u avail name) (h : layoutPlain u m avail name = .error (.recursive n)) :
    Within u n name ∧ Recursive u n := by
  induction hk : avail.length using Nat.strongRecOn generalizing avail name with
  | ind k ih =>
    cases layoutPlain_fails h with
    -- every record that is being laid out contains this one, and it is one of them
    | recursive hr ha => exact ⟨.refl, hopen n hr ha⟩
    | part n' _ ha hpart h =>
      obtain ⟨hwithin, hrec⟩ :=
        ih _ (hk ▸ length_otherRecords_lt ha) (hopen.otherRecords hpart) h rfl
      exact ⟨hwithin.tail hpart, hrec⟩

/-- What is within a record with well-founded parts has well-founded parts. -/
theorem acc_of_within {n name : String} (hacc : Acc (PartOf u) name) (hn : Within u n name) :
    Acc (PartOf u) n := by
  induction hn using ReflTransGen.head_induction_on with
  | refl => exact hacc
  | head hpart _ ih => exact ih.inv hpart

/-- No record within a record that has a layout contains itself. -/
theorem not_recursive_of_plain {avail : List RecordDecl} {name n : String} {l : RecordLayout}
    (h : layoutPlain u m avail name = .ok l) (hn : Within u n name) : ¬ Recursive u n :=
  not_transGen_of_acc (acc_of_within (acc_partOf_of_plain h) hn)

/-- A record of which a part can be named is in the unit. -/
theorem isSome_of_within {n name : String} (hn : Within u n name) (hrec : Recursive u n) :
    (u.record? name).isSome := by
  rcases ReflTransGen.cases_tail hn with rfl | ⟨k, -, r, hr, -⟩
  · obtain ⟨k, -, r, hr, -⟩ := TransGen.tail'_iff.1 hrec
    exact hr ▸ rfl
  · exact hr ▸ rfl

/-- A record has a layout, or it is unknown, or a recursion is reported. -/
theorem freshLayout_cases (hm : m.Aligned) (u : SourceUnit) (name : String) :
    (∃ l, freshLayout u m name = .ok l) ∨ u.record? name = none ∨
      ∃ n, freshLayout u m name = .error (.recursive n) := by
  cases h : freshLayout u m name with
  | ok l => exact Or.inl ⟨l, rfl⟩
  | error e =>
    cases e with
    | unknown n => exact Or.inr (Or.inl (layoutPlain_eq_unknown_iff.1 h).2)
    | recursive n => exact Or.inr (Or.inr ⟨n, rfl⟩)
    | zeroAlignment => exact (freshLayout_ne_zeroAlignment hm name h).elim

/-- **What a question for a layout ends with**, in a data model with alignments. The search ends. It
fails for want of the record exactly if the unit has no such record. It fails because of a recursion
exactly if a record within the record contains itself, and the record that is reported is one of
these. Otherwise there is a layout. -/
theorem layout_outcome (hm : m.Aligned) (u : SourceUnit) (name : String) :
    (∃ t, (u.searchLayout m name).run.run .empty = some (layoutOf u m name, t)) ∧
    (∀ n, layoutOf u m name = .error (.unknown n) ↔ n = name ∧ u.record? name = none) ∧
    ((∃ n, layoutOf u m name = .error (.recursive n)) ↔ ∃ n, Within u n name ∧ Recursive u n) ∧
    (∀ n, layoutOf u m name = .error (.recursive n) → Within u n name ∧ Recursive u n) ∧
    ((∃ l, layoutOf u m name = .ok l) ↔
      (u.record? name).isSome ∧ ¬ ∃ n, Within u n name ∧ Recursive u n) := by
  have hends := searchLayout_engine (Engine.ofUnit u m) name
  refine ⟨⟨_, hends⟩, ?_⟩
  rw [layoutOf_eq]
  have hreported : ∀ n, freshLayout u m name = .error (.recursive n) →
      Within u n name ∧ Recursive u n := fun n h => layoutPlain_recursive enclosed_records h
  have hok : ∀ l, freshLayout u m name = .ok l →
      (u.record? name).isSome ∧ ¬ ∃ n, Within u n name ∧ Recursive u n := by
    rintro l h
    exact ⟨isSome_of_fresh h, fun ⟨n, hn, hrec⟩ => not_recursive_of_plain h hn hrec⟩
  refine ⟨fun n => layoutPlain_eq_unknown_iff, ⟨?_, ?_⟩, hreported, ⟨?_, ?_⟩⟩
  · rintro ⟨n, h⟩
    exact ⟨n, hreported n h⟩
  · rintro ⟨n, hn, hrec⟩
    rcases freshLayout_cases hm u name with ⟨l, h⟩ | h | h
    · exact ((hok l h).2 ⟨n, hn, hrec⟩).elim
    · have hsome := isSome_of_within hn hrec
      rw [h] at hsome
      cases hsome
    · exact h
  · rintro ⟨l, h⟩
    exact hok l h
  · rintro ⟨hsome, hno⟩
    rcases freshLayout_cases hm u name with h | h | ⟨n, h⟩
    · exact h
    · rw [h] at hsome
      cases hsome
    · exact (hno ⟨n, hreported n h⟩).elim

/-- A record that does not contain itself has no layout either, because one of its members does. -/
theorem layout_outcome_loop :
    DataModel.lp64.Aligned ∧ layoutOf loopUnit .lp64 "Outer" = .error (.recursive "Loop") ∧
      Within loopUnit "Loop" "Outer" ∧ Recursive loopUnit "Loop" := by
  have h : layoutOf loopUnit .lp64 "Outer" = .error (.recursive "Loop") := by decide +kernel
  obtain ⟨-, -, -, hreported, -⟩ := layout_outcome aligned_lp64 loopUnit "Outer"
  exact ⟨aligned_lp64, h, hreported "Loop" h⟩

end NodeSchema

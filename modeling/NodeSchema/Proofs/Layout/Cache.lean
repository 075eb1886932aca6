import NodeSchema.Proofs.Layout.Plain

/-!
# The cache of an engine

What an engine has learnt never changes an answer: `layoutWithin` gives what `layoutPlain` gives,
and every layout that it keeps is the one that an engine without a cache finds.

* `Agrees`: a computation with a cache gives the result of one without, and keeps the cache sound.
* `layoutWithin_agrees`: **the cache is invisible.**
* `Engine.answer_eq`: so an answer does not depend on earlier questions.
-/

namespace NodeSchema

open C Relation

variable {u : SourceUnit} {m : DataModel}

/-! ### Computations with a cache -/

/-- The layouts in the cache are those that are found without it. -/
def SoundCache (u : SourceUnit) (m : DataModel) (c : LayoutCache) : Prop :=
  ∀ n l, c.lookup n = some l → freshLayout u m n = .ok l

/-- With a sound cache the computation has this result, and it keeps the cache sound. -/
def Agrees (u : SourceUnit) (m : DataModel) {α : Type} (x : LayoutM α) (y : Except LayoutError α) :
    Prop :=
  ∀ c, SoundCache u m c → (x.run c).1 = y ∧ SoundCache u m (x.run c).2

/-- A cache survives an error: what was learnt before it is kept. -/
theorem run_bind {α β : Type} (x : LayoutM α) (f : α → LayoutM β) (c : LayoutCache) :
    (x >>= f).run c = match (x.run c).1 with
      | .ok a => (f a).run (x.run c).2
      | .error e => (.error e, (x.run c).2) := by
  rw [ExceptT.run_bind]
  change StateT.bind x.run _ c = _
  rcases h : x.run c with ⟨r, c'⟩
  simp only [StateT.bind, h, bind]
  cases r <;> rfl

namespace Agrees

variable {α β : Type}

theorem pure (a : α) : Agrees u m (pure a) (.ok a) :=
  fun _ hc => ⟨rfl, hc⟩

theorem throw (e : LayoutError) : Agrees u m (throw e : LayoutM α) (.error e) :=
  fun _ hc => ⟨rfl, hc⟩

theorem bind {x : LayoutM α} {y : Except LayoutError α} {f : α → LayoutM β}
    {g : α → Except LayoutError β} (hx : Agrees u m x y)
    (hf : ∀ a, y = .ok a → Agrees u m (f a) (g a)) : Agrees u m (x >>= f) (y >>= g) := by
  intro c hc
  obtain ⟨h1, h2⟩ := hx c hc
  rw [run_bind, h1]
  cases y with
  | error e => exact ⟨rfl, h2⟩
  | ok a => exact hf a rfl _ h2

theorem foldlM {f : β → α → LayoutM β} {g : β → α → Except LayoutError β} {as : List α}
    (hf : ∀ a ∈ as, ∀ b, Agrees u m (f b a) (g b a)) (b : β) :
    Agrees u m (as.foldlM f b) (as.foldlM g b) := by
  induction as generalizing b with
  | nil => exact pure b
  | cons a as ih =>
    obtain ⟨ha, has⟩ := List.forall_mem_cons.1 hf
    exact (ha b).bind fun b _ => ih has b

end Agrees

/-! ### The engine -/

section

variable {layout : String → LayoutM RecordLayout} {plain : String → Except LayoutError RecordLayout}

theorem memberScalar_agrees {f : Field}
    (hl : ∀ n, f.HasPart u n → Agrees u m (layout n) (plain n)) :
    Agrees u m (memberScalar u m layout f.type) (scalarPlain u m plain f.type) := by
  unfold memberScalar scalarPlain
  by_cases hp : f.type.isPointer
  · rw [if_pos hp, if_pos hp]
    exact .pure _
  · rw [if_neg hp, if_neg hp]
    by_cases hr : (u.record? f.type.typeName).isSome
    · rw [if_pos hr, if_pos hr]
      exact (hl _ ⟨hp, rfl, hr⟩).bind fun l _ => .pure l.scalar
    · rw [if_neg hr, if_neg hr]
      split
      · exact .pure _
      · exact .pure _

theorem placeMember_agrees {f : Field} {p : Placed}
    (hl : ∀ n, f.HasPart u n → Agrees u m (layout n) (plain n)) :
    Agrees u m (placeMember u m layout p f) (placePlain u m plain p f) := by
  refine (memberScalar_agrees hl).bind fun s _ => ?_
  by_cases hs : s.align = 0
  · rw [if_pos hs, if_pos hs]
    exact (Agrees.throw (α := PUnit) _).bind fun _ _ => .pure _
  · rw [if_neg hs, if_neg hs]
    exact .pure _

end

/-- Every record that is being laid out contains this one. -/
def Enclosed (u : SourceUnit) (avail : List RecordDecl) (name : String) : Prop :=
  ∀ n, (u.record? n).isSome → ¬ avail.any (·.name = n) → TransGen (PartOf u) name n

theorem Enclosed.otherRecords {avail : List RecordDecl} {name n : String}
    (h : Enclosed u avail name) (hn : PartOf u n name) :
    Enclosed u (otherRecords avail name) n := by
  intro k hk hm
  by_cases hkn : k = name
  · exact hkn ▸ .single hn
  · exact .head hn (h k hk fun ha => hm (any_otherRecords_iff.2 ⟨ha, hkn⟩))

theorem enclosed_records {name : String} : Enclosed u u.records name :=
  fun _ hk hm => (hm (any_records_iff.2 hk)).elim

/-- Only records of the unit have a layout. -/
theorem isSome_of_fresh {n : String} {l : RecordLayout} (h : freshLayout u m n = .ok l) :
    (u.record? n).isSome := by
  obtain ⟨r, hr, -⟩ := freshLayout_ok_iff.1 h
  exact hr ▸ rfl

/-- A layout that has been found before is the one that would be found now. -/
theorem layoutPlain_of_fresh {avail : List RecordDecl} {name : String} {l : RecordLayout}
    (h : freshLayout u m name = .ok l) (hopen : Enclosed u avail name) :
    layoutPlain u m avail name = .ok l := by
  refine layoutPlain_mono h fun n hn => ?_
  have hsome : (u.record? n).isSome := any_records_iff.1 (closed_records (isSome_of_fresh h) n hn)
  -- a record that is open contains this one, so it is no part of it
  by_contra hm
  exact not_transGen_of_plain h (TransGen.trans_left (hopen n hsome hm) hn)

theorem SoundCache.cons {c : LayoutCache} {name : String} {l : RecordLayout}
    (hc : SoundCache u m c) (h : freshLayout u m name = .ok l) :
    SoundCache u m ((name, l) :: c) := by
  intro n l' hl'
  rw [List.lookup_cons] at hl'
  by_cases hn : n = name
  · simp_all
  · have hn : (n == name) = false := by simpa using hn
    exact hc n l' (by simpa [hn] using hl')

/-- **The cache is invisible.** -/
theorem layoutWithin_agrees {avail : List RecordDecl} {name : String}
    (hopen : Enclosed u avail name) :
    Agrees u m (layoutWithin u m avail name) (layoutPlain u m avail name) := by
  induction hk : avail.length using Nat.strongRecOn generalizing avail name with
  | ind k ih =>
    intro c hc
    have hget : (get : LayoutM LayoutCache).run c = (.ok c, c) := rfl
    rw [layoutWithin, run_bind, hget]
    dsimp only
    cases hlook : c.lookup name with
    -- the layout is known, and it is the one that would be found
    | some l =>
      have h := hc name l hlook
      exact ⟨(layoutPlain_of_fresh h hopen).symm, hc⟩
    | none =>
      rw [layoutPlain]
      cases hr : u.record? name with
      | none => exact Agrees.throw _ c hc
      | some r =>
        dsimp only
        split
        · rename_i ha
          have hsome : (u.record? name).isSome := hr ▸ rfl
          have hrec : ∀ f ∈ r.members, ∀ p, Agrees u m
              (placeMember u m (layoutWithin u m (otherRecords avail name)) p f)
              (placePlain u m (layoutPlain u m (otherRecords avail name)) p f) := by
            intro f hf p
            refine placeMember_agrees fun n hn => ?_
            exact ih _ (hk ▸ length_otherRecords_lt ha) (hopen.otherRecords ⟨r, hr, f, hf, hn⟩) rfl
          refine (Agrees.foldlM hrec _).bind (fun p hp => ?_) c hc
          -- what is learnt is the layout without a cache: the open records do not matter
          have hplain : layoutPlain u m avail name = .ok (p.finish name) := by
            obtain ⟨ss, hss, rfl⟩ := foldlM_placePlain_ok_iff.1 hp
            exact layoutPlain_ok_iff.2 ⟨r, hr, ha, ss, hss, rfl⟩
          exact fun c' hc' => ⟨rfl, hc'.cons (layoutPlain_mono hplain (closed_records hsome))⟩
        · exact Agrees.throw _ c hc

namespace Engine

/-- What an engine has learnt is sound. -/
def OK (e : Engine) : Prop :=
  SoundCache e.source e.model e.cache

theorem ofUnit_ok (u : SourceUnit) (m : DataModel) : (ofUnit u m).OK := by
  intro n l h
  cases h

/-- **An answer does not depend on what has been learnt**, and what is learnt from it is sound. -/
theorem OK.layout {e : Engine} (h : e.OK) (name : String) :
    (e.layout name).1 = freshLayout e.source e.model name ∧ (e.layout name).2.OK :=
  layoutWithin_agrees enclosed_records e.cache h

/-- The engine after questions for the layouts of these records. -/
def asked (e : Engine) (names : List String) : Engine :=
  names.foldl (fun e name => (e.layout name).2) e

/-- Questions keep an engine sound, and change neither its unit nor its data model. -/
theorem OK.asked {e : Engine} (h : e.OK) (names : List String) :
    (e.asked names).OK ∧ (e.asked names).source = e.source ∧ (e.asked names).model = e.model := by
  induction names generalizing e with
  | nil => exact ⟨h, rfl, rfl⟩
  | cons name names ih => exact ih (h.layout name).2

/-- What an engine answers for a record after questions for the records `earlier`. -/
def answer (u : SourceUnit) (m : DataModel) (earlier : List String) (name : String) :
    Except LayoutError RecordLayout :=
  (((ofUnit u m).asked earlier).layout name).1

/-- After any questions an engine answers as one that knows nothing yet. -/
theorem answer_eq (u : SourceUnit) (m : DataModel) (earlier : List String) (name : String) :
    answer u m earlier name = freshLayout u m name := by
  obtain ⟨hok, hu, hm⟩ := (ofUnit_ok u m).asked earlier
  unfold answer
  rw [(hok.layout name).1, hu, hm]
  rfl

end Engine

/-- What an engine answers that knows nothing yet. -/
theorem layoutOf_eq (u : SourceUnit) (m : DataModel) (name : String) :
    layoutOf u m name = freshLayout u m name :=
  ((Engine.ofUnit_ok u m).layout name).1

end NodeSchema

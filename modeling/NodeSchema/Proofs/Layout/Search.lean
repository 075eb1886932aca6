import NodeSchema.Proofs.Layout.Aligned

/-!
# The search for a layout

`layoutWithin` is given the records that are not being laid out, and ends because they become fewer.
The search of this module is given no such thing. The records that it has started are a part of its
state: they are entered on the way in and crossed out on the way out, also when a member fails, and
nothing bounds the recursion. `none` stands for a search that does not end.

* `Mirrors`: a search ends as a computation with a cache does, and leaves the started records alone.
* `searchLayout_mirrors`: **the search ends**, and finds what `layoutWithin` finds.
* `searchAll_eq`: so successive searches answer as engines do that know nothing yet.
* `questions_independent`: **no question has an influence on a later one.**
-/

namespace NodeSchema

open C

/-- What a search remembers: the layouts that it knows, and the records that it has started and not
finished. -/
structure Search where
  known : LayoutCache
  started : List String

namespace Search

/-- Nothing is known and nothing is started. -/
def empty : Search :=
  ⟨[], []⟩

/-- Starts a record. -/
def start (s : Search) (name : String) : Search :=
  { s with started := name :: s.started }

/-- A record is no longer being laid out. -/
def leave (s : Search) (name : String) : Search :=
  { s with started := s.started.erase name }

/-- Keeps a layout. -/
def learn (s : Search) (name : String) (l : RecordLayout) : Search :=
  { s with known := (name, l) :: s.known }

end Search

/-- A search. What it remembers is kept also when it fails. -/
abbrev SearchM := ExceptT LayoutError (StateT Search Option)

namespace C.SourceUnit

mutual

/-- Searches for the layout of a record. -/
def searchLayout (u : SourceUnit) (m : DataModel) (name : String) : SearchM RecordLayout :=
  (do
    let s ← get
    match s.known.lookup name with
    | some l => return .ok l
    | none =>
      match u.record? name with
      | none => return .error (.unknown name)
      | some r =>
        if name ∈ s.started then return .error (.recursive name)
        else
          set (s.start name)
          let placed ← ExceptT.run <|
            r.members.foldlM (fun p member => u |>.searchMember m p member) Placed.empty
          modify (·.leave name)
          match placed with
          | .error e => return .error e
          | .ok p =>
            let l := p.finish name
            modify (·.learn name l)
            return .ok l : StateT Search Option (Except LayoutError RecordLayout))
partial_fixpoint

/-- Searches for what a member needs, and places it. -/
def searchMember (u : SourceUnit) (m : DataModel) (p : Placed) (member : Field) :
    SearchM Placed := do
  let s ← u |>.searchScalar m member.type
  if s.align = 0 then throw .zeroAlignment
  return p.add member s
partial_fixpoint

/-- Searches for the size and the alignment of a member. -/
def searchScalar (u : SourceUnit) (m : DataModel) (type : TypeSpec) : SearchM Scalar := do
  if type.isPointer then return m.pointer
  else
    let name := type.typeName
    if (u.record? name).isSome then return (← u |>.searchLayout m name).scalar
    else if (u.enum? name).isSome then return m.enumeration
    else return m.scalarOf name
partial_fixpoint

end

/-- Searches for records one after the other. A search that fails does not end the others. -/
def searchAll (u : SourceUnit) (m : DataModel) (names : List String) :
    StateT Search Option (List (Except LayoutError RecordLayout)) :=
  names.mapM fun name => (u.searchLayout m name).run

end C.SourceUnit

variable {u : SourceUnit} {m : DataModel}

/-! ### Searches and computations with a cache -/

section

variable {α β : Type}

/-- The search `y` ends as the computation `x` does, from every cache, and the records `started` are
the ones that have been started, before and after. -/
def Mirrors (started : List String) (x : LayoutM α) (y : SearchM α) : Prop :=
  ∀ c, y.run.run ⟨c, started⟩ = some ((x.run c).1, ⟨(x.run c).2, started⟩)

namespace Mirrors

variable {started : List String}

theorem pure (a : α) : Mirrors started (pure a) (pure a) :=
  fun _ => rfl

theorem throw (e : LayoutError) :
    Mirrors started (throw e : LayoutM α) (throw e : SearchM α) :=
  fun _ => rfl

theorem bind {x : LayoutM α} {y : SearchM α} {f : α → LayoutM β} {g : α → SearchM β}
    (hxy : Mirrors started x y) (hfg : ∀ a, Mirrors started (f a) (g a)) :
    Mirrors started (x >>= f) (y >>= g) := by
  intro c
  have hx := hxy c
  rw [run_bind, ExceptT.run_bind, StateT.run_bind, hx]
  cases (x.run c).1 with
  | error e => rfl
  | ok a => exact hfg a _

theorem foldlM {f : β → α → LayoutM β} {g : β → α → SearchM β} {as : List α}
    (hfg : ∀ a ∈ as, ∀ b, Mirrors started (f b a) (g b a)) (b : β) :
    Mirrors started (as.foldlM f b) (as.foldlM g b) := by
  induction as generalizing b with
  | nil => exact pure b
  | cons a as ih =>
    rw [List.foldlM_cons, List.foldlM_cons]
    obtain ⟨ha, has⟩ := List.forall_mem_cons.1 hfg
    exact (ha b).bind fun b => ih has b

end Mirrors

end

/-! ### The search for one record -/

section

variable {started : List String} {layout : String → LayoutM RecordLayout}

theorem searchScalar_mirrors {f : Field}
    (hl : ∀ n, f.HasPart u n → Mirrors started (layout n) (u.searchLayout m n)) :
    Mirrors started (memberScalar u m layout f.type) (u.searchScalar m f.type) := by
  rw [SourceUnit.searchScalar]
  unfold memberScalar
  by_cases hp : f.type.isPointer
  · rw [if_pos hp, if_pos hp]
    exact .pure _
  · rw [if_neg hp, if_neg hp]
    by_cases hr : (u.record? f.type.typeName).isSome
    · rw [if_pos hr, if_pos hr]
      exact (hl _ ⟨hp, rfl, hr⟩).bind fun l => .pure l.scalar
    · rw [if_neg hr, if_neg hr]
      split
      · exact .pure _
      · exact .pure _

theorem searchMember_mirrors {f : Field} {p : Placed}
    (hl : ∀ n, f.HasPart u n → Mirrors started (layout n) (u.searchLayout m n)) :
    Mirrors started (placeMember u m layout p f) (u.searchMember m p f) := by
  rw [SourceUnit.searchMember]
  refine (searchScalar_mirrors hl).bind fun s => ?_
  by_cases hs : s.align = 0
  · rw [if_pos hs, if_pos hs]
    exact (Mirrors.throw (α := PUnit) _).bind fun _ => .pure _
  · rw [if_neg hs, if_neg hs]
    exact .pure _

end

/-- The records that have been started are those that may not be laid out. -/
def Started (u : SourceUnit) (avail : List RecordDecl) (started : List String) : Prop :=
  ∀ n, (u.record? n).isSome → (avail.any (·.name = n) ↔ n ∉ started)

theorem started_records : Started u u.records [] := by
  intro n hn
  simp only [List.not_mem_nil, not_false_eq_true, iff_true]
  exact any_records_iff.2 hn

theorem Started.start {avail : List RecordDecl} {started : List String}
    (h : Started u avail started) (name : String) :
    Started u (otherRecords avail name) (name :: started) := by
  intro n hn
  rw [any_otherRecords_iff, h n hn, List.mem_cons, not_or, and_comm]

/-- **One step of the search**, from any state. -/
theorem run_searchLayout (u : SourceUnit) (m : DataModel) (name : String) (s : Search) :
    (u.searchLayout m name).run.run s =
      match s.known.lookup name, u.record? name with
      | some l, _ => some (.ok l, s)
      | none, none => some (.error (.unknown name), s)
      | none, some r =>
        if name ∈ s.started then some (.error (.recursive name), s)
        else
          ((r.members.foldlM (u.searchMember m) Placed.empty).run.run (s.start name)).map
            fun (placed, t) => match placed with
              | .error e => (.error e, t.leave name)
              | .ok p => (.ok (p.finish name), (t.leave name).learn name (p.finish name)) := by
  rw [SourceUnit.searchLayout, ExceptT.run, StateT.run_bind, StateT.run_get, pure_bind]
  dsimp only
  cases s.known.lookup name with
  | some l => rfl
  | none =>
    cases u.record? name with
    | none => rfl
    | some r =>
      dsimp only
      by_cases hs : name ∈ s.started
      · rw [if_pos hs, if_pos hs]
        rfl
      · rw [if_neg hs, if_neg hs]
        change Option.bind ((r.members.foldlM (u.searchMember m) Placed.empty).run.run
          (s.start name)) _ = _
        rw [Option.map_eq_bind]
        congr 1
        funext ⟨placed, t⟩
        cases placed <;> rfl

/-- **The search ends**, with what `layoutWithin` finds, and every record that it has started on its
way is crossed out again. -/
theorem searchLayout_mirrors {avail : List RecordDecl} {started : List String}
    (hstarted : Started u avail started) (name : String) :
    Mirrors started (layoutWithin u m avail name) (u.searchLayout m name) := by
  induction hk : avail.length using Nat.strongRecOn generalizing avail started name with
  | ind k ih =>
    intro c
    have hget : (get : LayoutM LayoutCache).run c = (.ok c, c) := rfl
    rw [layoutWithin, run_bind, hget, run_searchLayout]
    dsimp only
    cases c.lookup name with
    | some l => rfl
    | none =>
      cases hr : u.record? name with
      | none => rfl
      | some r =>
        have hsome : (u.record? name).isSome := hr ▸ rfl
        dsimp only
        by_cases ha : avail.any (·.name = name)
        · rw [dif_pos ha, if_neg ((hstarted name hsome).1 ha)]
          have hmembers : ∀ f ∈ r.members, ∀ p, Mirrors (name :: started)
              (placeMember u m (layoutWithin u m (otherRecords avail name)) p f)
              (u.searchMember m p f) := by
            intro f hf p
            refine searchMember_mirrors fun n hn => ?_
            exact ih _ (hk ▸ length_otherRecords_lt ha) (hstarted.start name) n rfl
          have hfold := Mirrors.foldlM hmembers Placed.empty c
          change (Option.map _ ((r.members.foldlM (u.searchMember m) Placed.empty).run.run
            ⟨c, name :: started⟩)) = _
          rw [run_bind, hfold, Option.map_some]
          -- what has been started is the record and what had been started before it
          have hleave : ∀ c', (Search.mk c' (name :: started)).leave name = ⟨c', started⟩ := by
            intro c'
            rw [Search.leave, List.erase_cons_head]
          obtain ⟨placed, c'⟩ := ExceptT.run (r.members.foldlM
            (placeMember u m (layoutWithin u m (otherRecords avail name))) Placed.empty) c
          cases placed with
          | error e =>
            dsimp only
            rw [hleave]
          | ok p =>
            dsimp only
            rw [hleave]
            rfl
        · rw [dif_neg ha, if_pos (not_not.1 fun hn => ha ((hstarted name hsome).2 hn))]
          rfl

/-- **A search is a question to an engine** that has learnt the layouts that are known. -/
theorem searchLayout_engine (e : Engine) (name : String) :
    (e.source.searchLayout e.model name).run.run ⟨e.cache, []⟩ =
      some ((e.layout name).1, ⟨(e.layout name).2.cache, []⟩) :=
  searchLayout_mirrors started_records name e.cache

/-! ### Successive searches -/

/-- **Successive searches answer as engines do that know nothing yet**, and they learn what one engine
learns that is asked the same questions. -/
theorem searchAll_eq {e : Engine} (he : e.OK) (names : List String) :
    (e.source.searchAll e.model names).run ⟨e.cache, []⟩ =
      some (names.map (layoutOf e.source e.model), ⟨(e.asked names).cache, []⟩) := by
  induction names generalizing e with
  | nil => rfl
  | cons name names ih =>
    obtain ⟨hanswer, hok⟩ := he.layout name
    have hrest : (e.source.searchAll e.model names).run ⟨(e.layout name).2.cache, []⟩ =
        some (names.map (layoutOf e.source e.model), ⟨((e.layout name).2.asked names).cache, []⟩) :=
      ih hok
    rw [SourceUnit.searchAll, List.mapM_cons, StateT.run_bind, searchLayout_engine e name]
    change Option.bind ((e.source.searchAll e.model names).run ⟨(e.layout name).2.cache, []⟩) _ = _
    rw [hrest, hanswer, ← layoutOf_eq]
    rfl

/-- **No question has an influence on a later one.** Successive searches all end. Each gives what an
engine answers that knows nothing yet, with the record that a recursion is found at. After them no
record is being laid out, and the layouts that are known are those that a search without any
knowledge finds. -/
theorem questions_independent (hm : m.Aligned) (u : SourceUnit) (names : List String) :
    ∃ known, (u.searchAll m names).run .empty = some (names.map (layoutOf u m), ⟨known, []⟩) ∧
      (∀ n l, known.lookup n = some l → layoutOf u m n = .ok l) ∧
      (∀ n, ∃ t, (u.searchLayout m n).run.run .empty = some (layoutOf u m n, t)) ∧
      (∀ n, Engine.answer u m names n = layoutOf u m n) ∧
      ∀ n, layoutOf u m n ≠ .error .zeroAlignment := by
  have hok := Engine.ofUnit_ok u m
  obtain ⟨hasked, hu, hmodel⟩ := hok.asked names
  refine ⟨((Engine.ofUnit u m).asked names).cache, searchAll_eq hok names, ?_, ?_, ?_, ?_⟩
  · intro n l hl
    have hl := hasked n l hl
    rw [hu, hmodel] at hl
    exact (layoutOf_eq u m n).trans hl
  · intro n
    exact ⟨_, searchLayout_engine (Engine.ofUnit u m) n⟩
  · intro n
    rw [Engine.answer_eq, layoutOf_eq]
  · intro n
    rw [layoutOf_eq]
    exact freshLayout_ne_zeroAlignment hm n

/-- A record that contains a plain record, and then one that contains itself. -/
def loopUnit : SourceUnit where
  items :=
    [ .record ⟨"Outer", .typedef, [⟨.value "Inner", "inner"⟩, ⟨.value "Loop", "loop"⟩]⟩
      , .record ⟨"Inner", .typedef, [⟨.value "int", "number"⟩, ⟨.value "char", "letter"⟩]⟩
      , .record ⟨"Loop", .struct, [⟨.value "struct Loop", "again"⟩]⟩ ]

/-- The layout of the plain record. -/
def innerLayout : RecordLayout :=
  ⟨"Inner", [⟨"number", .value "int", 0, 4, 4⟩, ⟨"letter", .value "char", 4, 1, 1⟩], 8, 4⟩

/-- The layout of the plain record is learnt while the outer one fails, and it is the right one. -/
theorem questions_independent_loop :
    DataModel.lp64.Aligned ∧ ∃ known,
      (loopUnit.searchAll .lp64 ["Outer", "Inner", "Nope"]).run .empty =
        some ([.error (.recursive "Loop"), .ok innerLayout, .error (.unknown "Nope")],
          ⟨known, []⟩) := by
  obtain ⟨known, hrun, -⟩ :=
    questions_independent aligned_lp64 loopUnit ["Outer", "Inner", "Nope"]
  have hanswers : ["Outer", "Inner", "Nope"].map (layoutOf loopUnit .lp64) =
      [.error (.recursive "Loop"), .ok innerLayout, .error (.unknown "Nope")] := by
    decide +kernel
  rw [hanswers] at hrun
  exact ⟨aligned_lp64, known, hrun⟩

end NodeSchema

import NodeSchema.Layout.Basic

/-!
# Computing record layouts

`layoutWithin` lays out a record of a unit with the records that it contains by value. The records
that are being laid out are taken from those that are open, so a record that is met again while it is
not open contains itself. Layouts are kept in a cache, which successive questions share.

* `Engine.layout` asks for a record and gives the engine with what it has learnt.
* `layoutOf` asks an engine that knows nothing yet.
-/

namespace NodeSchema

open C

/-- The layouts that are known. -/
abbrev LayoutCache := List (String × RecordLayout)

/-- A computation of layouts. What it learns is kept also when it fails. -/
abbrev LayoutM := ExceptT LayoutError (StateM LayoutCache)

/-- The size and the alignment of a member, by a function for the records of the unit. -/
def memberScalar (u : SourceUnit) (m : DataModel) (layout : String → LayoutM RecordLayout)
    (type : TypeSpec) : LayoutM Scalar :=
  if type.isPointer then return m.pointer
  else
    let name := type.typeName
    if (u.record? name).isSome then return (← layout name).scalar
    else if (u.enum? name).isSome then return m.enumeration
    else return m.scalarOf name

/-- Places one more member. -/
def placeMember (u : SourceUnit) (m : DataModel) (layout : String → LayoutM RecordLayout)
    (p : Placed) (member : Field) : LayoutM Placed := do
  let s ← memberScalar u m layout member.type
  if s.align = 0 then throw .zeroAlignment
  return p.add member s

/-- The records of other names. -/
def otherRecords (avail : List RecordDecl) (name : String) : List RecordDecl :=
  avail.filter (·.name ≠ name)

theorem length_otherRecords_lt {avail : List RecordDecl} {name : String}
    (h : avail.any (·.name = name)) : (otherRecords avail name).length < avail.length := by
  obtain ⟨r, hr, hn⟩ := List.any_eq_true.1 h
  exact List.length_filter_lt_length_iff_exists.2 ⟨r, hr, by simpa using hn⟩

/-- The layout of a record, where `avail` holds the records that are not being laid out. -/
def layoutWithin (u : SourceUnit) (m : DataModel) (avail : List RecordDecl) (name : String) :
    LayoutM RecordLayout := do
  if let some l := (← get).lookup name then return l
  match u.record? name with
  | none => throw (.unknown name)
  | some r =>
    if _ : avail.any (·.name = name) then
      let placed ← r.members.foldlM
        (placeMember u m (layoutWithin u m (otherRecords avail name))) Placed.empty
      let l := placed.finish name
      modify ((name, l) :: ·)
      return l
    else throw (.recursive name)
termination_by avail.length
decreasing_by exact length_otherRecords_lt (by assumption)

/-- A unit with a data model and the layouts that are known of it. -/
structure Engine where
  source : SourceUnit
  model : DataModel
  cache : LayoutCache

namespace Engine

/-- The engine that knows no layout yet. -/
def ofUnit (u : SourceUnit) (m : DataModel) : Engine :=
  ⟨u, m, []⟩

/-- The layout of a record, and the engine with what it has learnt. -/
def layout (e : Engine) (name : String) : Except LayoutError RecordLayout × Engine :=
  let (l, cache) := (layoutWithin e.source e.model e.source.records name).run e.cache
  (l, { e with cache })

end Engine

/-- The layout of a record of a unit. -/
def layoutOf (u : SourceUnit) (m : DataModel) (name : String) : Except LayoutError RecordLayout :=
  ((Engine.ofUnit u m).layout name).1

end NodeSchema

import NodeSchema.C.Unit

/-!
# Data models and record layouts

A data model gives the size and the alignment of every type that a generated record can mention by
value. A layout gives the place of every member of a record.
-/

namespace NodeSchema

/-- A size and an alignment in bytes. -/
structure Scalar where
  size : Nat
  align : Nat
deriving DecidableEq, Repr, Inhabited

/-- The sizes and alignments of types. -/
structure DataModel where
  pointer : Scalar
  /-- Every enum. -/
  enumeration : Scalar
  primitives : List (String × Scalar)
  /-- Types that are declared elsewhere. The first entry of a name counts. -/
  opaques : List (String × Scalar)
  /-- Any other type. -/
  fallback : Scalar
deriving DecidableEq, Repr

namespace DataModel

/-- Registers a type that is declared elsewhere. -/
def withOpaque (m : DataModel) (name : String) (s : Scalar) : DataModel :=
  { m with opaques := (name, s) :: m.opaques }

/-- Pointers and `long` of eight bytes, and the types `Token` and `Value`. -/
def lp64 : DataModel where
  pointer := ⟨8, 8⟩
  enumeration := ⟨4, 4⟩
  primitives :=
    [("char", ⟨1, 1⟩), ("bool", ⟨1, 1⟩), ("short", ⟨2, 2⟩), ("int", ⟨4, 4⟩), ("float", ⟨4, 4⟩),
      ("long", ⟨8, 8⟩), ("double", ⟨8, 8⟩), ("size_t", ⟨8, 8⟩)]
  opaques := [("Value", ⟨16, 8⟩), ("Token", ⟨24, 8⟩)]
  fallback := ⟨8, 8⟩

/-- The size and the alignment of a type that is neither a pointer nor declared in the unit. -/
def scalarOf (m : DataModel) (name : String) : Scalar :=
  ((m.primitives.lookup name).or (m.opaques.lookup name)).getD m.fallback

end DataModel

/-- The place of a member. -/
structure FieldLayout where
  name : String
  type : TypeSpec
  offset : Nat
  size : Nat
  align : Nat
deriving DecidableEq, Repr

/-- The layout of a record. -/
structure RecordLayout where
  name : String
  fields : List FieldLayout
  size : Nat
  align : Nat
deriving DecidableEq, Repr

namespace RecordLayout

/-- The size and the alignment of a record as a member of another one. -/
def scalar (l : RecordLayout) : Scalar :=
  ⟨l.size, l.align⟩

/-- The place of the first member. -/
def first? (l : RecordLayout) : Option FieldLayout :=
  l.fields.head?

/-- The place of the first member of a name. -/
def field? (l : RecordLayout) (name : String) : Option FieldLayout :=
  l.fields.find? (·.name = name)

end RecordLayout

/-- Why a record has no layout. -/
inductive LayoutError where
  /-- The record contains itself by value. -/
  | recursive (name : String)
  /-- The unit has no such record. -/
  | unknown (name : String)
  /-- A member has an alignment of zero, for which no offset can be computed. -/
  | zeroAlignment
deriving DecidableEq, Repr

/-- The wording of an error. An alignment of zero has none. -/
def LayoutError.message? : LayoutError → Option String
  | recursive name => some s!"Record `{name}` contains itself by value"
  | unknown name => some s!"Unknown record `{name}`"
  | zeroAlignment => none

/-! ### Placing members -/

/-- The least multiple of `align` that is at least `offset`. -/
def alignTo (offset align : Nat) : Nat :=
  (offset + align - 1) / align * align

/-- The members that have been placed, the end of the last one and the largest alignment. -/
structure Placed where
  fields : List FieldLayout
  stop : Nat
  align : Nat
deriving DecidableEq, Repr

namespace Placed

/-- No members. -/
def empty : Placed :=
  ⟨[], 0, 1⟩

/-- Places one more member. -/
def add (p : Placed) (member : Field) (s : Scalar) : Placed :=
  let offset := alignTo p.stop s.align
  { fields := p.fields ++ [⟨member.name, member.type, offset, s.size, s.align⟩]
    stop := offset + s.size
    align := max p.align s.align }

/-- The layout of a record whose members have been placed. -/
def finish (p : Placed) (name : String) : RecordLayout :=
  ⟨name, p.fields, alignTo p.stop p.align, p.align⟩

end Placed

end NodeSchema

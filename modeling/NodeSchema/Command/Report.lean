import NodeSchema.Generated.Declarations
import NodeSchema.Layout.Engine

/-!
# Reports on a registry
-/

namespace NodeSchema

/-- A text with blanks after it, up to a width. -/
def padRight (width : Nat) (s : String) : String :=
  s ++ String.ofList (List.replicate (width - s.length) ' ')

/-- A text with blanks before it, up to a width. -/
def padLeft (width : Nat) (s : String) : String :=
  String.ofList (List.replicate (width - s.length) ' ') ++ s

/-- The line of a family: its group, the names of its records and its variants. -/
def Family.summary (f : Family) : String :=
  s!"  {f.group} ({f.base.name} / {f.containerType}): " ++
    ", ".intercalate (f.variants.map (·.name)) ++ "\n"

/-- How much a registry holds, and what each family is made of. -/
def Registry.summary (r : Registry) : String :=
  s!"{r.families.length} families, {r.variantCount} variants, {r.enums.length} prelude enums\n" ++
    String.join (r.families.map Family.summary)

/-- The records whose sizes are reported: the base record and the variants of each family. -/
def Registry.reportedRecords (r : Registry) : List String :=
  r.families.flatMap fun f => f.base.name :: f.variants.map (·.name)

/-- The line of a layout. -/
def RecordLayout.summary (l : RecordLayout) : String :=
  "  " ++ padRight 20 l.name ++ " size " ++ padLeft 3 (toString l.size) ++
    " align " ++ toString l.align ++ "\n"

/-- The lines of some records. The first record without a layout decides. -/
def Engine.summary (e : Engine) : List String → Except LayoutError String
  | [] => .ok ""
  | name :: rest =>
    match e.layout name with
    | (.error err, _) => .error err
    | (.ok l, e) => (e.summary rest).map (l.summary ++ ·)

/-- The sizes of all records of the declarations. -/
def Registry.layoutSummary (r : Registry) : Except LayoutError String :=
  (Engine.ofUnit (declarationsUnit r {}) .lp64).summary r.reportedRecords

end NodeSchema

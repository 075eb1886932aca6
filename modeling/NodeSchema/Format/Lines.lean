import NodeSchema.Registry.Build

/-!
# The line format of schemas

One definition per line. A `#` starts a comment, blank lines say nothing, and blanks around a line
do not count. `enum N : a, b` declares an enum, `[group]` opens a family, and every other line is an
entry of the family that is open.

* `significantLines` gives the lines that say something, each with its location: the line number and
  the column, in bytes, of its first character that is not blank.
* `readSource` turns them into the definitions of the schema.
-/

namespace NodeSchema

open Text

/-- The lines of a text that say something, without comments and surrounding blanks. -/
def significantLines (source : String) (text : String) : List (Location × List Char) :=
  (lines text.toList).zipIdx.filterMap fun (raw, i) =>
    let line := raw.takeWhile (· ≠ '#')
    if line.all isBlank then none
    else some (⟨source, i + 1, byteCount (line.takeWhile isBlank) + 1⟩, trim line)

/-- What a line says. -/
inductive Directive where
  /-- Opens a family. -/
  | family (group : String)
  /-- Declares an enum. -/
  | enum (name : String) (members : List String)
  /-- Adds an entry to the family that is open. -/
  | entry (text : String)
deriving DecidableEq, Repr

/-- Reads what follows the opening bracket of a line that opens a family. -/
def readHeader (loc : Location) (rest : List Char) : Except Stop Directive :=
  match [']'].isSuffixOf? rest with
  | none => .error (Error.schemaFormat loc.file s!"unterminated family header at {loc}")
  | some group =>
    match trim group with
    | [] => .error (Error.schemaFormat loc.file s!"empty family name at {loc}")
    | group => .ok (.family (String.ofList group))

/-- Reads what follows the keyword of the line `line` that declares an enum. Members that are blank
do not count. -/
def readEnum (loc : Location) (line rest : List Char) : Except Stop Directive :=
  match cut ':' rest with
  | none => .error (Error.missingSeparator loc (String.ofList line))
  | some (name, members) =>
    let members := ((members.splitOn ',').map trim).filter fun m => !m.isEmpty
    .ok (.enum (String.ofList name) (members.map String.ofList))

/-- Reads a significant line. -/
def readDirective (loc : Location) (line : List Char) : Except Stop Directive :=
  match "[".toList.isPrefixOf? line with
  | some rest => readHeader loc rest
  | none =>
    match "enum ".toList.isPrefixOf? line with
    | some rest => readEnum loc line rest
    | none => .ok (.entry (String.ofList line))

/-- Adds an entry to the family that was opened last. -/
def Source.addEntry (s : Source) (loc : Location) (text : String) : Except Stop Source :=
  match s.families.getLast? with
  | none => .error (Error.schemaFormat loc.file s!"entry outside of a [family] section at {loc}")
  | some f =>
    let f := { f with entries := f.entries ++ [⟨text, loc⟩] }
    .ok { s with families := s.families.dropLast ++ [f] }

/-- Adds what a line says to the definitions before it. -/
def Source.addLine (s : Source) (line : Location × List Char) : Except Stop Source := do
  let loc := line.1
  match ← readDirective loc line.2 with
  | .family group => return s.addFamily group [] loc
  | .enum name members => return s.addEnum name members loc
  | .entry text => s.addEntry loc text

/-- The definitions of a schema in the line format. -/
def readSource (source text : String) : Except Stop Source :=
  (significantLines source text).foldlM Source.addLine ∅

/-- The registry of a schema in the line format. -/
def readLines (source text : String) : Except Stop Registry := do
  (← readSource source text).build

end NodeSchema

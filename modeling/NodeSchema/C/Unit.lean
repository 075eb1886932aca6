import NodeSchema.Field.Basic

/-!
# Source units of C

A source unit is a list of items: preprocessor lines, enums, records, prototypes and definitions.
The items are rendered as blocks with a blank line between them, and what is looked up in a unit is
what is printed.
-/

namespace NodeSchema.C

/-- How a record is declared. -/
inductive RecordKind where
  /-- A typedef of a record without a tag. -/
  | typedef
  /-- A typedef of a record with a tag, so that the record can point at itself. -/
  | tagged
  /-- A record with a tag only. -/
  | struct
deriving DecidableEq, Repr

/-- The declaration of a record. -/
structure RecordDecl where
  name : String
  kind : RecordKind
  members : List Field
deriving DecidableEq, Repr

/-- The declaration of an enum. -/
structure EnumDecl where
  name : String
  members : List String
deriving DecidableEq, Repr

/-- A statement as it is printed. -/
inductive Stmt where
  | line (text : String)
  | blank
  | cond (condition : String) (body : List Stmt)
deriving Repr

/-- A function. A prototype has no use for the body. -/
structure FunctionDecl where
  returnType : TypeSpec
  name : String
  params : List Field
  body : List Stmt
deriving Repr

/-- A block of a source unit. -/
inductive Item where
  /-- Preprocessor lines that stay together. -/
  | directives (lines : List String)
  | enum (e : EnumDecl)
  | record (r : RecordDecl)
  /-- Prototypes without blank lines between them. -/
  | prototypes (fs : List FunctionDecl)
  | definition (f : FunctionDecl)
deriving Repr

/-- A source unit. -/
structure SourceUnit where
  items : List Item
deriving Repr

/-! ### Look-up -/

namespace SourceUnit

/-- The records of a unit in their order. -/
def records (u : SourceUnit) : List RecordDecl :=
  u.items.filterMap fun
    | .record r => some r
    | _ => none

/-- The first record of a name. -/
def record? (u : SourceUnit) (name : String) : Option RecordDecl :=
  u.records.find? (·.name = name)

/-- The enums of a unit in their order. -/
def enums (u : SourceUnit) : List EnumDecl :=
  u.items.filterMap fun
    | .enum e => some e
    | _ => none

/-- The first enum of a name. -/
def enum? (u : SourceUnit) (name : String) : Option EnumDecl :=
  u.enums.find? (·.name = name)

end SourceUnit

/-! ### Rendering -/

/-- The blanks before a line inside `depth` braces. -/
def indent (depth : Nat) : String :=
  String.ofList (List.replicate (4 * depth) ' ')

/-- Texts, each of them at one step and with an ending. -/
def memberLines (ending : String) (texts : List String) : String :=
  String.join (texts.map fun t => indent 1 ++ t ++ ending ++ "\n")

/-- A record as it is printed. -/
def RecordDecl.render (r : RecordDecl) : String :=
  let opening := match r.kind with
    | .typedef => "typedef struct \x7b\n"
    | .tagged => "typedef struct " ++ r.name ++ " \x7b\n"
    | .struct => "struct " ++ r.name ++ " \x7b\n"
  let closing := match r.kind with
    | .typedef | .tagged => "\x7d " ++ r.name ++ ";"
    | .struct => "\x7d;"
  opening ++ memberLines ";" (r.members.map toString) ++ closing

/-- An enum as it is printed. -/
def EnumDecl.render (e : EnumDecl) : String :=
  "typedef enum \x7b\n" ++ memberLines "," e.members ++ "\x7d " ++ e.name ++ ";"

mutual

/-- A statement inside `depth` braces, with the line feed at its end. -/
def Stmt.render (depth : Nat) : Stmt → String
  | .line text => indent depth ++ text ++ "\n"
  | .blank => "\n"
  | .cond condition body =>
    indent depth ++ "if (" ++ condition ++ ") \x7b\n" ++ renderBody (depth + 1) body ++
      indent depth ++ "\x7d\n"

/-- Statements inside `depth` braces. -/
def renderBody (depth : Nat) : List Stmt → String
  | [] => ""
  | s :: ss => s.render depth ++ renderBody depth ss

end

namespace FunctionDecl

/-- The type, the name and the parameters of a function. -/
def signature (f : FunctionDecl) : String :=
  toString f.returnType ++ " " ++ f.name ++ "(" ++ ", ".intercalate (f.params.map toString) ++ ")"

def prototype (f : FunctionDecl) : String :=
  f.signature ++ ";"

/-- A function with its body. -/
def definition (f : FunctionDecl) : String :=
  f.signature ++ " \x7b\n" ++ renderBody 1 f.body ++ "\x7d"

end FunctionDecl

/-- An item as it is printed. -/
def Item.render : Item → String
  | .directives lines => "\n".intercalate lines
  | .enum e => e.render
  | .record r => r.render
  | .prototypes fs => "\n".intercalate (fs.map (·.prototype))
  | .definition f => f.definition

/-- A unit as it is printed: its items with a blank line between them. -/
def SourceUnit.render (u : SourceUnit) : String :=
  "\n\n".intercalate (u.items.map Item.render) ++ "\n"

end NodeSchema.C

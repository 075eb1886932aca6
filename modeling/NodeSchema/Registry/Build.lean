import NodeSchema.Registry.Entry
import NodeSchema.Registry.Source

/-!
# Building a registry

`Source.build` checks the definitions of a source and gives the registry, or the first defect. The
enums come first, then the base records and containers of all families, and then the variants of all
families, so no variant can take the name of a base record that is declared after it.

* `NameKind` says what a name stands for.
* `Names.declare` takes a name, or fails if it is taken.
-/

namespace NodeSchema

/-- What a name stands for. -/
inductive NameKind where
  | nodeHeader
  | discriminatorEnum
  | preludeEnum
  | baseRecord
  | container
  | variant
  /-- A member of the enum of this name. -/
  | enumerator (owner : String)
deriving DecidableEq, Repr

/-- What a name stands for, in the words of messages. -/
def NameKind.text : NameKind → String
  | nodeHeader => "the node header"
  | discriminatorEnum => "the discriminator enum"
  | preludeEnum => "a prelude enum"
  | baseRecord => "a family base record"
  | container => "a container type"
  | variant => "a variant record"
  | enumerator owner => s!"an enumerator of `{owner}`"

/-- The names that are taken, with what they stand for. -/
abbrev Names := List (String × NameKind)

namespace Names

/-- The names that are taken in every schema. -/
def initial : Names :=
  [(nodeHeaderName, .nodeHeader), (discriminatorEnumName, .discriminatorEnum)]

/-- Takes a name. -/
def declare (names : Names) (loc : Location) (name : String) (kind : NameKind) :
    Except Stop Names :=
  match names.lookup name with
  | some taken => .error (Error.duplicateTypeName loc name taken.text)
  | none => .ok ((name, kind) :: names)

end Names

/-- The first field whose name is in `seen` or occurs before it. -/
def firstRepeated (seen : List String) : List Field → Option Field
  | [] => none
  | f :: fs => if f.name ∈ seen then some f else firstRepeated (f.name :: seen) fs

/-- Fails if two members of a record have one name. A variant has the member `self` besides its
fields. -/
def Record.expectDistinct (r : Record) (embedded : List String) : Except Stop Unit :=
  match firstRepeated embedded r.fields with
  | some f => .error (Error.duplicateField r.loc r.name f.name)
  | none => .ok ()

/-- Whether a record starts with the node header. -/
def Record.hasHeader (r : Record) : Bool :=
  match r.fields with
  | [] => false
  | f :: _ => f.name = headerMember ∧ f.type = .value nodeHeaderName

/-! ### Enums -/

/-- Adds the members of an enum to the enumerators, each with the name of its enum. -/
def addEnumerators (loc : Location) (owner : String) :
    List String → Names → Except Stop Names
  | [], enumerators => .ok enumerators
  | m :: ms, enumerators => do
    expectIdentifier loc m
    let enumerators ← enumerators.declare loc m (.enumerator owner)
    addEnumerators loc owner ms enumerators

/-- Adds the enums to the names and their members to the enumerators. -/
def addEnums : List EnumSource → Names → Names → Except Stop (Names × Names)
  | [], names, enumerators => .ok (names, enumerators)
  | e :: es, names, enumerators => do
    expectIdentifier e.loc e.name
    let names ← names.declare e.loc e.name .preludeEnum
    let enumerators ← addEnumerators e.loc e.name e.members enumerators
    addEnums es names enumerators

/-! ### Base records -/

/-- The defect of a family whose group or container is that of an earlier family. -/
def clashReason? (previous : List Family) (group : String) : Option String :=
  let container := containerType group
  if previous.any (·.group = group) then some "group name already used"
  else if previous.any (·.containerType = container) then
    some s!"container type `{container}` already used"
  else none

/-- Reads the base record of a family and takes the names of the record and of the container. -/
def addBase (previous : List Family) (names : Names) (s : FamilySource) :
    Except Stop (Family × Names) := do
  expectIdentifier s.loc s.group
  match s.entries with
  | [] => .error (Error.emptyFamily s.loc s.group)
  | e :: _ =>
    match clashReason? previous s.group with
    | some reason => .error (Error.duplicateFamily s.loc s.group reason)
    | none =>
      let base ← readEntry e.loc e.text
      if !base.hasHeader then .error (Error.missingHeader e.loc base.name)
      else
        base.expectDistinct []
        let names ← names.declare e.loc base.name .baseRecord
        let names ← names.declare e.loc (containerType s.group) .container
        return (⟨s.group, base, []⟩, names)

/-- Reads the base records of all families, in order after the families in `previous`. -/
def addBases : List FamilySource → List Family → Names → Except Stop (List Family × Names)
  | [], previous, names => .ok (previous, names)
  | s :: ss, previous, names => do
    let (f, names) ← addBase previous names s
    addBases ss (previous ++ [f]) names

/-! ### Variants -/

/-- Reads a variant of the family at position `family` and takes its name and its tag. -/
def addVariant (enumerators : Names) (family : Nat) (e : EntrySource)
    (tags : List Discriminator) (names : Names) :
    Except Stop (Record × List Discriminator × Names) := do
  let v ← readEntry e.loc e.text
  v.expectDistinct [headerMember]
  let tag := discriminatorName v.name
  match tags.find? (·.name = tag) with
  | some d => .error (Error.discriminatorCollision e.loc v.name d.variant tag)
  | none =>
    match enumerators.lookup tag with
    | some taken => .error (Error.duplicateTypeName e.loc tag taken.text)
    | none =>
      let names ← names.declare e.loc v.name .variant
      return (v, tags ++ [⟨tag, v.name, family⟩], names)

/-- Reads the variants of one family. -/
def addVariants (enumerators : Names) (family : Nat) :
    List EntrySource → List Discriminator → Names →
      Except Stop (List Record × List Discriminator × Names)
  | [], tags, names => .ok ([], tags, names)
  | e :: es, tags, names => do
    let (v, tags, names) ← addVariant enumerators family e tags names
    let (vs, tags, names) ← addVariants enumerators family es tags names
    return (v :: vs, tags, names)

/-- Reads the variants of all families: those of `ss`, whose base records are in `fs`, from position
`family` on. -/
def addAllVariants (enumerators : Names) (family : Nat) :
    List FamilySource → List Family → List Discriminator → Names →
      Except Stop (List Family × List Discriminator)
  | s :: ss, f :: fs, tags, names => do
    let (vs, tags, names) ← addVariants enumerators family s.entries.tail tags names
    let (fs, tags) ← addAllVariants enumerators (family + 1) ss fs tags names
    return ({ f with variants := vs } :: fs, tags)
  | _, _, tags, _ => .ok ([], tags)

/-- Checks the definitions of a source and gives their registry, or the first defect. -/
def Source.build (s : Source) : Except Stop Registry := do
  let (names, enumerators) ← addEnums s.enums Names.initial []
  let (families, names) ← addBases s.families [] names
  let (families, discriminators) ← addAllVariants enumerators 0 s.families families [] names
  return ⟨s.enums.map fun e => ⟨e.name, e.members⟩, families, discriminators⟩

end NodeSchema

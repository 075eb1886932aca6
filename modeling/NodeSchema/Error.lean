import NodeSchema.Location

/-!
# Errors

One type for everything that can go wrong: a schema that is malformed or inconsistent, an operation
on a node tree that is refused, and a file that cannot be used. `Error.message` holds every wording.

* `Error.location?` is the place in the schema, for the errors that have one.
* `Error.isSchemaError` tells the errors of a schema from all others.
-/

namespace NodeSchema

/-- What can go wrong. -/
inductive Error where
  /-- An entry without a colon after its name. -/
  | missingSeparator (loc : Location) (entry : String)
  /-- An entry with nothing before its colon. -/
  | emptyName (loc : Location) (entry : String)
  /-- A name that is not an identifier of C. -/
  | invalidName (loc : Location) (name : String)
  /-- A field that cannot be read. -/
  | malformedField (loc : Location) (field fault : String)
  /-- A base record that does not start with the node header. -/
  | missingHeader (loc : Location) (record : String)
  /-- A family without a base record. -/
  | emptyFamily (loc : Location) (group : String)
  /-- A family that clashes with an earlier one. -/
  | duplicateFamily (loc : Location) (group reason : String)
  /-- Two variants with one discriminator. -/
  | discriminatorCollision (loc : Location) (variant previous discriminator : String)
  /-- A name that is declared twice. -/
  | duplicateTypeName (loc : Location) (name existing : String)
  /-- A record with two members of one name. -/
  | duplicateField (loc : Location) (record field : String)
  /-- A schema source that is not in the format. A fault without a text is one of syntax. -/
  | schemaFormat (source : String) (fault : Option String)
  /-- A variant that the registry does not have. -/
  | unknownVariant (name : String)
  /-- A field that the variant does not have. -/
  | unknownField (variant field : String)
  /-- A field that is owned in another way than the operation needs. -/
  | ownershipMismatch (variant field expected actual : String)
  /-- A handle of a node that is not live. -/
  | staleNode (index : Nat)
  /-- A child of a type that the field does not hold. -/
  | familyMismatch (variant field expected actual : String)
  /-- A child that has an owner. -/
  | alreadyOwned (index : Nat)
  /-- A child that would own itself. -/
  | ownershipCycle (index : Nat)
  /-- A file that cannot be read or written. -/
  | io (fault : String)
deriving DecidableEq, Repr

namespace Error

/-- The wording of an error. -/
def message : Error → String
  | missingSeparator loc entry =>
    s!"Malformed entry at {loc}: missing ':' between name and field list in `{entry}`"
  | emptyName loc entry => s!"Malformed entry at {loc}: empty name in `{entry}`"
  | invalidName loc name => s!"Invalid name `{name}` at {loc}: not a C identifier"
  | malformedField loc field fault => s!"Malformed field at {loc}: {fault} in `{field}`"
  | missingHeader loc record =>
    s!"Base record `{record}` at {loc} must start with `Node self`"
  | emptyFamily loc group => s!"Family `{group}` at {loc} has no base record"
  | duplicateFamily loc group reason =>
    s!"Family `{group}` at {loc} clashes with an earlier family: {reason}"
  | discriminatorCollision loc variant previous discriminator =>
    s!"Discriminator collision at {loc}: `{variant}` and `{previous}` both map to {discriminator}"
  | duplicateTypeName loc name existing =>
    s!"Name `{name}` at {loc} is already declared as {existing}"
  | duplicateField loc record field =>
    s!"Record `{record}` at {loc} declares member `{field}` more than once"
  | schemaFormat source fault =>
    let text := fault.getD "syntax error"
    s!"Schema format error in {source}: {text}"
  | unknownVariant name => s!"Unknown variant `{name}`"
  | unknownField variant field => s!"Variant `{variant}` has no field `{field}`"
  | ownershipMismatch variant field expected actual =>
    s!"Field `{variant}.{field}` is {actual}, not {expected}"
  | staleNode index => s!"Node handle #{index} is stale or was never allocated"
  | familyMismatch variant field expected actual =>
    s!"Field `{variant}.{field}` holds `{expected}` nodes, not `{actual}`"
  | alreadyOwned index => s!"Node #{index} already has an owner"
  | ownershipCycle index => s!"Attaching node #{index} would make it own itself"
  | io fault => s!"IO error: {fault}"

/-- The place in the schema that an error points at, if it has one. -/
def location? : Error → Option Location
  | missingSeparator loc _ | emptyName loc _ | invalidName loc _ | malformedField loc _ _
  | missingHeader loc _ | emptyFamily loc _ | duplicateFamily loc _ _
  | discriminatorCollision loc _ _ _ | duplicateTypeName loc _ _ | duplicateField loc _ _ =>
    some loc
  | _ => none

/-- Whether an error was found while a schema was read or checked. -/
def isSchemaError (e : Error) : Bool :=
  match e with
  | schemaFormat _ _ => true
  | _ => e.location?.isSome

end Error

/-- Why a computation stops without a result. -/
inductive Stop where
  /-- An error that is reported. -/
  | error (e : Error)
  /-- An abnormal end, which reports nothing. -/
  | aborted
deriving DecidableEq, Repr

instance : Coe Error Stop := ⟨Stop.error⟩

end NodeSchema

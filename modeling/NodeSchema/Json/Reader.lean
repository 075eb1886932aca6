import NodeSchema.Json.Token

/-!
# Reading JSON documents of a known shape

Readers take tokens from the front of a document and stop at its first problem: a place where the
document has another shape than expected, or one where it is no JSON.

* `text`, `list` and `pair` read a string, a list, and a record of two fields. A record may also be
  written as a list of its fields in their order, and then no field may be missing.
* `document` reads a whole document.
-/

namespace NodeSchema.Json

/-- The first problem of a document. -/
inductive Fault where
  /-- The document has another shape than expected. -/
  | shape (message : String)
  /-- The document is no JSON. -/
  | syntaxError
deriving DecidableEq, Repr

/-- The tokens that are left after something was read. -/
abbrev Rest (ts : List Token) := { rest : List Token // rest.length < ts.length }

/-- A reader takes at least one token. -/
abbrev Reader (α : Type) := (ts : List Token) → Except Fault (α × Rest ts)

/-- The value that a token starts, as messages name it. -/
def Token.description? : Token → Option String
  | openList => some "sequence"
  | openMap => some "map"
  | null => some "null"
  | bool true => some "boolean `true`"
  | bool false => some "boolean `false`"
  | number n => some n.description
  | text s => some ("string " ++ Text.quoted s)
  | _ => none

/-- The problem of a document in which something else than `expected` starts with these tokens. -/
def mismatch (expected : String) : List Token → Fault
  | [] => .syntaxError
  | t :: _ =>
    match t.description? with
    | some found => .shape s!"invalid type: {found}, expected {expected}"
    | none => .syntaxError

/-- Reads a string. -/
def text : Reader String
  | .text s :: ts => .ok (s, ⟨ts, by simp⟩)
  | ts => .error (mismatch "a string" ts)

/-! ### Lists -/

/-- What stands before the next element of a list. -/
inductive Next (ts : List Token) where
  /-- The list ends. -/
  | stop (rest : Rest ts)
  /-- An element follows. -/
  | element (rest : { rest : List Token // rest.length ≤ ts.length })

/-- Looks for the next element of a list. A comma stands before every element but the first. -/
def next (first : Bool) : (ts : List Token) → Except Fault (Next ts)
  | .closeList :: ts => .ok (.stop ⟨ts, by simp⟩)
  | .comma :: ts =>
    if first then .error .syntaxError
    else
      match ts with
      | .closeList :: _ => .error .syntaxError
      | ts => .ok (.element ⟨ts, by simp⟩)
  | [] => .error .syntaxError
  | t :: ts => if first then .ok (.element ⟨t :: ts, by simp⟩) else .error .syntaxError

/-- Reads the elements of a list that are left, up to its closing bracket. -/
def elements {α : Type} (item : Reader α) (first : Bool) (ts : List Token) :
    Except Fault (List α × Rest ts) := do
  match ← next first ts with
  | .stop rest => return ([], rest)
  | .element ⟨rest, h⟩ =>
    let (x, ⟨rest, h'⟩) ← item rest
    let (xs, ⟨rest, h''⟩) ← elements item false rest
    return (x :: xs, ⟨rest, by omega⟩)
termination_by ts.length

/-- Reads a list. -/
def list {α : Type} (item : Reader α) : Reader (List α)
  | .openList :: ts => do
    let (xs, ⟨rest, h⟩) ← elements item true ts
    return (xs, ⟨rest, by simp only [List.length_cons]; omega⟩)
  | ts => .error (mismatch "a sequence" ts)

/-! ### Records of two fields -/

/-- The shape of a record of two fields: its name, the names of its fields, and the value of the
first field if it may be missing. -/
structure Pair (α : Type) where
  title : String
  first : String
  second : String
  fallback : Option α

namespace Pair

variable {α β : Type} (p : Pair α)

/-- The problem of a list that ends before its field number `n`. -/
def tooShort (n : Nat) : Fault :=
  .shape s!"invalid length {n}, expected {p.title} with 2 elements"

/-- Reads the bracket that closes a list. -/
def close : (ts : List Token) → Except Fault (Rest ts)
  | .closeList :: ts => .ok ⟨ts, by simp⟩
  | _ => .error .syntaxError

/-- Reads the fields of a record that is written as a list. -/
def positional (a : Reader α) (b : Reader β) (ts : List Token) :
    Except Fault ((α × β) × Rest ts) := do
  match ← next true ts with
  | .stop _ => throw (p.tooShort (if p.fallback.isSome then 1 else 0))
  | .element ⟨rest, h₁⟩ =>
    let (x, ⟨rest, h₂⟩) ← a rest
    match ← next false rest with
    | .stop _ => throw (p.tooShort 1)
    | .element ⟨rest, h₃⟩ =>
      let (y, ⟨rest, h₄⟩) ← b rest
      let ⟨rest, h₅⟩ ← close rest
      return ((x, y), ⟨rest, by omega⟩)

/-- The fields at the end of a record that is written with names. -/
def finish (x : Option α) (y : Option β) : Except Fault (α × β) :=
  match x.or p.fallback, y with
  | some x, some y => .ok (x, y)
  | none, _ => .error (.shape s!"missing field `{p.first}`")
  | _, none => .error (.shape s!"missing field `{p.second}`")

/-- The problem of a field that the record does not have. -/
def unknownField (key : String) : Fault :=
  .shape s!"unknown field `{key}`, expected `{p.first}` or `{p.second}`"

/-- Reads the colon and the value of a field. -/
def value {γ : Type} (item : Reader γ) : Reader γ
  | .colon :: ts => do
    let (v, ⟨rest, h⟩) ← item ts
    return (v, ⟨rest, by simp only [List.length_cons]; omega⟩)
  | _ => .error .syntaxError

/-- What stands before the next field of a record that is written with names. -/
inductive NextField (ts : List Token) where
  /-- The record ends. -/
  | stop (rest : Rest ts)
  /-- A field of this name follows. -/
  | field (key : String) (rest : Rest ts)

/-- Looks for the next field. A comma stands before every field but the first. -/
def nextField (first : Bool) : (ts : List Token) → Except Fault (NextField ts)
  | .closeMap :: ts => .ok (.stop ⟨ts, by simp⟩)
  | .comma :: .text key :: ts =>
    if first then .error .syntaxError
    else .ok (.field key ⟨ts, by simp only [List.length_cons]; omega⟩)
  | .text key :: ts =>
    if first then .ok (.field key ⟨ts, by simp⟩) else .error .syntaxError
  | _ => .error .syntaxError

/-- Reads the fields that are left of a record that is written with names. -/
def named (a : Reader α) (b : Reader β) (first : Bool) (x : Option α) (y : Option β)
    (ts : List Token) : Except Fault ((α × β) × Rest ts) := do
  match ← nextField first ts with
  | .stop rest => return (← p.finish x y, rest)
  | .field key ⟨rest, h₁⟩ =>
    if key = p.first then
      if x.isSome then throw (.shape s!"duplicate field `{key}`")
      let (v, ⟨rest, h₂⟩) ← value a rest
      let (r, ⟨rest, h₃⟩) ← named a b false (some v) y rest
      return (r, ⟨rest, by omega⟩)
    else if key = p.second then
      if y.isSome then throw (.shape s!"duplicate field `{key}`")
      let (v, ⟨rest, h₂⟩) ← value b rest
      let (r, ⟨rest, h₃⟩) ← named a b false x (some v) rest
      return (r, ⟨rest, by omega⟩)
    else throw (p.unknownField key)
termination_by ts.length

/-- Reads a record of two fields. -/
def read (a : Reader α) (b : Reader β) : Reader (α × β)
  | .openList :: ts => do
    let (r, ⟨rest, h⟩) ← p.positional a b ts
    return (r, ⟨rest, by simp only [List.length_cons]; omega⟩)
  | .openMap :: ts => do
    let (r, ⟨rest, h⟩) ← p.named a b true none none ts
    return (r, ⟨rest, by simp only [List.length_cons]; omega⟩)
  | ts => .error (mismatch p.title ts)

end Pair

/-- Reads a whole document. -/
def document {α : Type} (item : Reader α) (s : String) : Except Fault α := do
  let (x, ⟨rest, _⟩) ← item (tokens s.toList)
  if rest.isEmpty then return x else throw .syntaxError

end NodeSchema.Json

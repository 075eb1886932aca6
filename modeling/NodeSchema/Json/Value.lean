/-!
# Writing JSON

Values that are built from numbers, texts, lists and records, and their two written forms: `compact`
without any blanks, and `pretty` with one item per line.
-/

namespace NodeSchema.Json

/-- A value to be written. -/
inductive Value where
  | number (n : Nat)
  | text (s : String)
  | list (items : List Value)
  | record (fields : List (String × Value))

/-- A character in a string. -/
def writtenChar (c : Char) : List Char :=
  if c = '"' then ['\\', '"']
  else if c = '\\' then ['\\', '\\']
  else if c = '\x08' then ['\\', 'b']
  else if c = '\t' then ['\\', 't']
  else if c = '\n' then ['\\', 'n']
  else if c = '\x0c' then ['\\', 'f']
  else if c = '\r' then ['\\', 'r']
  else if c.toNat < 0x20 then
    ['\\', 'u', '0', '0'] ++ (Nat.toDigits 16 c.toNat).leftpad 2 '0'
  else [c]

/-- A text as a string of JSON. -/
def written (s : String) : String :=
  String.ofList ('"' :: s.toList.flatMap writtenChar ++ ['"'])

mutual

/-- The form without blanks. -/
def Value.compact : Value → String
  | .number n => toString n
  | .text s => written s
  | .list items => "[" ++ ",".intercalate (compactItems items) ++ "]"
  | .record fields => "\x7b" ++ ",".intercalate (compactFields fields) ++ "\x7d"

/-- The items of a list without blanks. -/
def compactItems : List Value → List String
  | [] => []
  | v :: vs => v.compact :: compactItems vs

/-- The fields of a record without blanks. -/
def compactFields : List (String × Value) → List String
  | [] => []
  | (k, v) :: fs => (written k ++ ":" ++ v.compact) :: compactFields fs

end

/-- A new line that is indented by `depth` steps of two spaces. -/
def newLine (depth : Nat) : String :=
  String.ofList ('\n' :: List.replicate (2 * depth) ' ')

/-- Items between brackets, each on a line of its own at `depth + 1` steps. -/
def block (opening closing : String) (depth : Nat) (items : List String) : String :=
  if items.isEmpty then opening ++ closing
  else
    opening ++ newLine (depth + 1) ++ ("," ++ newLine (depth + 1)).intercalate items ++
      newLine depth ++ closing

mutual

/-- The form with one item per line, inside `depth` brackets. -/
def Value.pretty (depth : Nat) : Value → String
  | .number n => toString n
  | .text s => written s
  | .list items => block "[" "]" depth (prettyItems (depth + 1) items)
  | .record fields => block "\x7b" "\x7d" depth (prettyFields (depth + 1) fields)

/-- The items of a list with one item per line. -/
def prettyItems (depth : Nat) : List Value → List String
  | [] => []
  | v :: vs => v.pretty depth :: prettyItems depth vs

/-- The fields of a record with one field per line. -/
def prettyFields (depth : Nat) : List (String × Value) → List String
  | [] => []
  | (k, v) :: fs => (written k ++ ": " ++ v.pretty depth) :: prettyFields depth fs

end

end NodeSchema.Json

import NodeSchema.Json.Number
import NodeSchema.Text.Quoted

/-!
# Tokens of JSON

A document is read as a list of tokens. Where it cannot be continued, the list ends in a token that
is broken, so whoever reads the tokens meets the first problem of the document first.
-/

namespace NodeSchema.Json

/-- A token of JSON. -/
inductive Token where
  | openList
  | closeList
  | openMap
  | closeMap
  | comma
  | colon
  | null
  | bool (b : Bool)
  | number (n : Number)
  | text (s : String)
  /-- What no token starts with. -/
  | broken
deriving DecidableEq, Repr

/-- The characters between tokens. -/
def isSpace (c : Char) : Bool :=
  c = ' ' || c = '\t' || c = '\n' || c = '\r'

/-! ### Strings -/

/-- The number of characters up to the quote that ends a string, the quote included. -/
def lengthToQuote? : List Char → Option Nat
  | [] => none
  | '"' :: _ => some 1
  | ['\\'] => none
  | '\\' :: _ :: s => (lengthToQuote? s).map (· + 2)
  | _ :: s => (lengthToQuote? s).map (· + 1)

/-- The value of a hexadecimal digit. -/
def hexValue? (c : Char) : Option Nat :=
  if c.isDigit then some (c.toNat - '0'.toNat)
  else if 'a' ≤ c && c ≤ 'f' then some (c.toNat - 'a'.toNat + 10)
  else if 'A' ≤ c && c ≤ 'F' then some (c.toNat - 'A'.toNat + 10)
  else none

/-- Reads four hexadecimal digits. -/
def hexUnit? (s : List Char) : Option (Nat × List Char) :=
  match s with
  | a :: b :: c :: d :: s => do
    let a ← hexValue? a
    let b ← hexValue? b
    let c ← hexValue? c
    let d ← hexValue? d
    return (((a * 16 + b) * 16 + c) * 16 + d, s)
  | _ => none

/-- What a string is made of: characters, and UTF-16 units given by number. -/
inductive Piece where
  | char (c : Char)
  | unit (n : Nat)
deriving DecidableEq, Repr

/-- The character after a backslash that stands for another one. -/
def escaped? (c : Char) : Option Char :=
  match c with
  | '"' => some '"'
  | '\\' => some '\\'
  | '/' => some '/'
  | 'b' => some '\x08'
  | 'f' => some '\x0c'
  | 'n' => some '\n'
  | 'r' => some '\r'
  | 't' => some '\t'
  | _ => none

/-- The pieces of the text between the quotes of a string. A control character has to be escaped. -/
def pieces? : List Char → Option (List Piece)
  | [] => some []
  | '\\' :: 'u' :: a :: b :: c :: d :: s => do
    let (n, _) ← hexUnit? [a, b, c, d]
    return .unit n :: (← pieces? s)
  | '\\' :: c :: s => do
    let c ← escaped? c
    return .char c :: (← pieces? s)
  | c :: s =>
    if c = '\\' || c.toNat < 0x20 then none
    else do return .char c :: (← pieces? s)

/-- The characters that pieces stand for. A unit above the others needs its partner beside it. -/
def join? : List Piece → Option (List Char)
  | [] => some []
  | .char c :: ps => (join? ps).map (c :: ·)
  | .unit m :: .unit n :: ps =>
    if 0xD800 ≤ m && m < 0xDC00 then
      if 0xDC00 ≤ n && n < 0xE000 then
        let c := Char.ofNat (0x10000 + (m - 0xD800) * 0x400 + (n - 0xDC00))
        (join? ps).map (c :: ·)
      else none
    else if 0xDC00 ≤ m && m < 0xE000 then none
    else (join? (.unit n :: ps)).map (Char.ofNat m :: ·)
  | .unit m :: ps =>
    if 0xD800 ≤ m && m < 0xE000 then none else (join? ps).map (Char.ofNat m :: ·)

/-- Reads what follows the opening quote of a string, and says how many characters were taken. -/
def lexText (s : List Char) : Option (String × Nat) := do
  let n ← lengthToQuote? s
  let cs ← join? (← pieces? (s.take (n - 1)))
  return (String.ofList cs, n)

/-! ### Tokens -/

/-- Reads the token that starts with `c`, and says how many characters after `c` it takes. -/
def lexToken (c : Char) (s : List Char) : Option (Token × Nat) :=
  let word (rest : String) (t : Token) : Option (Token × Nat) :=
    if rest.toList.isPrefixOf s then some (t, rest.length) else none
  match c with
  | '[' => some (.openList, 0)
  | ']' => some (.closeList, 0)
  | '\x7b' => some (.openMap, 0)
  | '\x7d' => some (.closeMap, 0)
  | ',' => some (.comma, 0)
  | ':' => some (.colon, 0)
  | '"' => (lexText s).map fun (t, n) => (.text t, n)
  | 'n' => word "ull" .null
  | 't' => word "rue" (.bool true)
  | 'f' => word "alse" (.bool false)
  | _ =>
    if c = '-' || c.isDigit then (lexNumber (c :: s)).map fun (n, k) => (.number n, k - 1)
    else none

/-- The tokens of a document. -/
def tokens : List Char → List Token
  | [] => []
  | c :: s =>
    if isSpace c then tokens s
    else
      match lexToken c s with
      | none => [.broken]
      | some (t, n) => t :: tokens (s.drop n)
termination_by s => s.length
decreasing_by
  · simp
  · simp only [List.length_drop, List.length_cons]; omega

end NodeSchema.Json

import NodeSchema.Decimal.Shortest

/-!
# Numbers of JSON

A number without fraction and exponent that fits 64 bits is an integer, and any other number is a
double. The double is the product of the leading digits, as many as fit 64 bits, and a power of ten,
each rounded once.

* `lexNumber` reads a number and says how many characters it takes.
* `Number.description` is a number as messages name it.
-/

namespace NodeSchema.Json

/-- A number as it was read. -/
inductive Number where
  | natural (n : Nat)
  /-- The integer `-n`. -/
  | negative (n : Nat)
  | float (x : Float)
deriving DecidableEq, Repr

/-! ### Text of doubles -/

/-- Decimal digits with `kk` of them before the point, padded with zeros where digits are missing. -/
def positional (digits : List Char) (kk : Int) : List Char :=
  let zeros (n : Int) := List.replicate n.toNat '0'
  if kk ≤ 0 then ['0', '.'] ++ zeros (-kk) ++ digits
  else if digits.length ≤ kk.toNat then digits ++ zeros (kk - digits.length) ++ ['.', '0']
  else digits.take kk.toNat ++ ['.'] ++ digits.drop kk.toNat

/-- Decimal digits with one of them before the point, and an exponent with its sign. -/
def scientific (digits : List Char) (exp : Int) : List Char :=
  let fraction := match digits.drop 1 with
    | [] => []
    | ds => '.' :: ds
  let sign := if exp < 0 then '-' else '+'
  digits.take 1 ++ fraction ++ 'e' :: sign :: (toString exp.natAbs).toList

/-- The text of a finite double: positional if the point lies at most five places before and at most
sixteen places behind the first digit, and scientific otherwise. -/
def floatText (x : Float) : String :=
  let bits := x.toBits.toNat
  let sign := if Nat.pow 2 63 ≤ bits then ['-'] else []
  let bits := bits % Nat.pow 2 63
  if bits = 0 then String.ofList (sign ++ ['0', '.', '0'])
  else
    let (d, exp) := Decimal.ofBits bits
    let digits := (toString d).toList
    let kk := digits.length + exp
    let text := if -5 < kk && kk ≤ 16 then positional digits kk else scientific digits (kk - 1)
    String.ofList (sign ++ text)

/-- A number as messages name it. -/
def Number.description : Number → String
  | natural n => s!"integer `{n}`"
  | negative n => s!"integer `-{n}`"
  | float x => "floating point `" ++ floatText x ++ "`"

/-! ### Reading -/

/-- The value of a decimal digit. -/
def digitValue (c : Char) : Nat :=
  c.toNat - '0'.toNat

/-- Appends digits to a significand for as long as the result fits 64 bits. Gives the significand and
the digits that are left. -/
def absorb (significand : Nat) : List Char → Nat × List Char
  | [] => (significand, [])
  | d :: ds =>
    let next := significand * 10 + digitValue d
    if next < UInt64.size then absorb next ds else (significand, d :: ds)

/-- A power of ten with an exponent of at most 308. -/
def tenTo (e : Nat) : Float :=
  Float.ofScientific 1 false e

/-- `significand · 10 ^ exp`, or nothing if it is too large for a double. Below `10 ^ -308` the
division is done in two steps, and below `10 ^ -616` nothing is left. -/
def scaled? (significand : Nat) (exp : Int) : Option Float :=
  let f := significand.toUInt64.toFloat
  if significand = 0 then some f
  else if 308 < exp then none
  else if 0 ≤ exp then
    let x := f * tenTo exp.toNat
    if x.isInf then none else some x
  else if -308 ≤ exp then some (f / tenTo (-exp).toNat)
  else if -616 ≤ exp then some (f / tenTo 308 / tenTo (-exp - 308).toNat)
  else some 0

/-- The parts of a number. -/
structure Numeral where
  negative : Bool
  whole : List Char
  /-- The digits after the point, if there is one. -/
  fraction : Option (List Char)
  /-- Whether the exponent is negative, and its digits, if there is one. -/
  exponent : Option (Bool × List Char)
deriving DecidableEq, Repr

/-- The value of an exponent, up to the sign. -/
def exponentValue (ds : List Char) : Nat :=
  ds.foldl (fun n d => n * 10 + digitValue d) 0

/-- The value of a numeral, or nothing if it is too large for a double. -/
def Numeral.value? (n : Numeral) : Option Number :=
  let (significand, rest) := absorb 0 n.whole
  if n.fraction.isNone && n.exponent.isNone && rest.isEmpty then
    if !n.negative then some (.natural significand)
    else if 0 < significand && significand ≤ Nat.pow 2 63 then some (.negative significand)
    else some (.float (-significand.toUInt64.toFloat))
  else
    let fraction := n.fraction.getD []
    let (significand, left) := absorb significand fraction
    let start : Int := (rest.length : Int) - (fraction.length - left.length : Nat)
    let exp : Int := match n.exponent with
      | none => start
      | some (true, ds) => start - exponentValue ds
      | some (false, ds) => start + exponentValue ds
    (scaled? significand exp).map fun x => .float (if n.negative then -x else x)

/-- Reads the digits after a point, and says how many characters were taken. -/
def lexFraction (s : List Char) : Option (Option (List Char) × Nat) :=
  match s with
  | '.' :: s =>
    match s.takeWhile Char.isDigit with
    | [] => none
    | ds => some (some ds, ds.length + 1)
  | _ => some (none, 0)

/-- Reads an exponent, and says how many characters were taken. -/
def lexExponent (s : List Char) : Option (Option (Bool × List Char) × Nat) :=
  match s with
  | [] => some (none, 0)
  | e :: s =>
    if e = 'e' || e = 'E' then
      let (negative, s, taken) := match s with
        | '+' :: s => (false, s, 2)
        | '-' :: s => (true, s, 2)
        | s => (false, s, 1)
      match s.takeWhile Char.isDigit with
      | [] => none
      | ds => some (some (negative, ds), ds.length + taken)
    else some (none, 0)

/-- Reads a number without its sign, and says how many characters were taken. A number has a digit
before its point, and no zero before another digit there. -/
def lexUnsigned (negative : Bool) (s : List Char) : Option (Number × Nat) := do
  let whole := s.takeWhile Char.isDigit
  if whole.isEmpty || (whole.head? = some '0' && 1 < whole.length) then none
  else
    let s := s.drop whole.length
    let (fraction, m) ← lexFraction s
    let (exponent, n) ← lexExponent (s.drop m)
    let value ← Numeral.value? ⟨negative, whole, fraction, exponent⟩
    return (value, whole.length + m + n)

/-- Reads a number, and says how many characters were taken. -/
def lexNumber (s : List Char) : Option (Number × Nat) :=
  match s with
  | '-' :: s => (lexUnsigned true s).map fun (n, k) => (n, k + 1)
  | s => lexUnsigned false s

end NodeSchema.Json

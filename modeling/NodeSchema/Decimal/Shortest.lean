/-!
# Shortest decimals

The shortest decimal that lies in an interval around a value, and among the decimals of that length
the one nearest to the value. A binary fraction is written with the fewest digits that read back as
the same fraction when the interval holds exactly the reals that round to it.

* `Span` is such an interval, in units of a power of two.
* `shortest?` gives the digits and the exponent of the decimal.
-/

namespace NodeSchema.Decimal

/-- A value `mid` between the bounds `lo` and `hi` of an interval, all three over `den`. The bounds
belong to the interval if it is closed. -/
structure Span where
  lo : Nat
  mid : Nat
  hi : Nat
  den : Nat
  closed : Bool
deriving Repr

/-- Whether `digits · 10 ^ exp` lies in the interval. -/
def Span.contains (s : Span) (digits : Nat) (exp : Int) : Bool :=
  let x := digits * Nat.pow 10 exp.toNat * s.den
  let scale := Nat.pow 10 (-exp).toNat
  if s.closed then s.lo * scale ≤ x && x ≤ s.hi * scale else s.lo * scale < x && x < s.hi * scale

/-- The decimal with exponent `exp` just below the value. -/
def Span.floor (s : Span) (exp : Int) : Nat :=
  s.mid * Nat.pow 10 (-exp).toNat / (s.den * Nat.pow 10 exp.toNat)

/-- The decimal with exponent `exp` in the interval that is nearest to the value. A tie goes to the
even neighbour. -/
def Span.nearest? (s : Span) (exp : Int) : Option Nat :=
  let below := s.floor exp
  let above := below + 1
  match s.contains below exp, s.contains above exp with
  | false, false => none
  | true, false => some below
  | false, true => some above
  | true, true =>
    -- Twice the value against the sum of its neighbours.
    let value := 2 * s.mid * Nat.pow 10 (-exp).toNat
    let middle := (below + above) * Nat.pow 10 exp.toNat * s.den
    if value < middle then some below
    else if middle < value then some above
    else some (if below % 2 = 0 then below else above)

/-- The first exponent of the list for which the interval holds a decimal, with its digits. -/
def shortest? (s : Span) (exps : List Int) : Option (Nat × Int) :=
  exps.findSome? fun e => (s.nearest? e).map fun d => (d, e)

/-- The interval of the reals that round to `m · 2 ^ q`. It reaches half a unit to each side, or a
quarter below if the value is the least of its binade, and it is closed if `m` is even. -/
def Span.ofBinary (m : Nat) (q : Int) (leastOfBinade : Bool) : Span :=
  let scale := Nat.pow 2 (q - 2).toNat
  let gap := if leastOfBinade then 1 else 2
  { lo := (4 * m - gap) * scale
    mid := 4 * m * scale
    hi := (4 * m + 2) * scale
    den := Nat.pow 2 (2 - q).toNat
    closed := m % 2 = 0 }

/-- The shortest decimal that reads back as the finite positive double with these bits. -/
def ofBits (bits : Nat) : Nat × Int :=
  let mantissa := bits % Nat.pow 2 52
  let biased := bits / Nat.pow 2 52 % Nat.pow 2 11
  let m := if biased = 0 then mantissa else mantissa + Nat.pow 2 52
  let q : Int := (if biased = 0 then 1 else biased : Nat) - 1075
  let s := Span.ofBinary m q (mantissa = 0 ∧ 1 < biased)
  -- The exponents from the largest that can occur, `10 ^ 308`, down to the smallest, `10 ^ -324`.
  let exps := (List.range 640).map fun (i : Nat) => (310 : Int) - i
  (shortest? s exps).getD (0, 0)

end NodeSchema.Decimal

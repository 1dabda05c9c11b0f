import EngineDuel.Number.Binary64

/-!
# The fewest digits that read back

The decimal text of a double carries the fewest digits from which the double is read back. They are a
multiple of the coarsest power of ten that has a multiple rounding to the double; of two such
multiples the nearer, and of two equally near the larger.
-/

namespace EngineDuel.Number

/-- A natural number of units of a power of ten. -/
structure Decimal where
  digits : Nat
  exponent : Int
  deriving DecidableEq, Repr

namespace Decimal

/-- The value of a decimal as a ratio: numerator. -/
def num (d : Decimal) : Nat := d.digits * Nat.pow 10 d.exponent.toNat

/-- The value of a decimal as a ratio: denominator. -/
def den (d : Decimal) : Nat := Nat.pow 10 (-d.exponent).toNat

end Decimal

/-- The greatest multiple of `10^k` that does not exceed the value of a pattern, in units of `10^k`. -/
def gridFloor (b : Nat) (k : Int) : Nat :=
  scaled b * Nat.pow 10 (-k).toNat / (one * Nat.pow 10 k.toNat)

/-- The multiple of `10^k` nearest to the value of a pattern among those that round to the pattern. -/
def onGrid? (b : Nat) (k : Int) : Option Decimal :=
  let low : Decimal := ⟨gridFloor b k, k⟩
  let high : Decimal := ⟨gridFloor b k + 1, k⟩
  match roundsTo b low.num low.den, roundsTo b high.num high.den with
  | true, false => some low
  | false, true => some high
  | true, true =>
    let value := 2 * scaled b * Nat.pow 10 (-k).toNat
    let middle := (2 * low.digits + 1) * (one * Nat.pow 10 k.toNat)
    if value < middle then some low else some high
  | false, false => none

/-- The first hit among `steps` grids from `10^k` downwards. -/
def firstOnGrid? (b : Nat) : Nat → Int → Option Decimal
  | 0, _ => none
  | steps + 1, k =>
    match onGrid? b k with
    | some d => some d
    | none => firstOnGrid? b steps (k - 1)

/-- A power of ten above the value of a pattern. -/
def coarsest (b : Nat) : Int := ((Nat.log2 (scaled b) : Int) - 1074) * 30103 / 100000 + 2

/-- Every digit of the value of a pattern: `2^-1074` is `5^1074 * 10^-1074`. -/
def exact (b : Nat) : Decimal := ⟨scaled b * Nat.pow 5 1074, -1074⟩

/-- The decimal with the fewest digits that rounds to a pattern. -/
def shortest (b : Nat) : Decimal :=
  if b = 0 then ⟨0, 0⟩ else (firstOnGrid? b 24 (coarsest b)).getD (exact b)

end EngineDuel.Number

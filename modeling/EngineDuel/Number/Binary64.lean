/-!
# Doubles as whole numbers

A finite double without its sign is named by its bit pattern, a natural number below
`infinityPattern`. Its value is a whole number of units of `2^-1074`, and these values grow with the
pattern, so questions about rounding are questions about natural numbers.

A ratio rounds to the nearest double, a tie to the even pattern. The value that would come after the
largest finite double takes part in this, and stands for infinity.
-/

namespace EngineDuel.Number

/-- The pattern of infinity; the finite patterns are those below it. -/
def infinityPattern : Nat := 0x7ff0000000000000

/-- The pattern of a NaN. -/
def nanPattern : Nat := 0x7ff8000000000000

/-- How many patterns there are from one power of two to the next. -/
def binade : Nat := 0x10000000000000

/-- The sign bit, as a number. -/
def signBit : Nat := 0x8000000000000000

/-- The value of a pattern in units of `2^-1074`. -/
def scaled (b : Nat) : Nat :=
  if b < binade then b else (binade + b % binade) * Nat.pow 2 (b / binade - 1)

/-- One, in units of `2^-1074`. -/
def one : Nat := Nat.pow 2 1074

/-- The largest number below `2^bits` that, added to `start`, satisfies `p`, for a `p` that holds up
to some bound: its bits are tried from the highest. -/
def largestSuch (p : Nat → Bool) : Nat → Nat → Nat
  | 0, start => start
  | bits + 1, start =>
    let next := start + Nat.pow 2 bits
    if p next then largestSuch p bits next else largestSuch p bits start

/-- The largest pattern whose value is at most `num / den`. -/
def floorPattern (num den : Nat) : Nat :=
  let goal := num * one
  min infinityPattern (largestSuch (fun b => scaled b * den ≤ goal) 63 0)

/-- The pattern of the double nearest to `num / den`, a tie going to the even pattern. -/
def roundRatio (num den : Nat) : Nat :=
  let b := floorPattern num den
  if infinityPattern ≤ b then infinityPattern
  else
    let value := 2 * (num * one)
    let middle := (scaled b + scaled (b + 1)) * den
    if value < middle then b
    else if middle < value then b + 1
    else if b % 2 = 0 then b else b + 1

/-- Whether `num / den` rounds to the pattern `b`: it lies between the middles of `b` and its two
neighbours, which belong to an even `b`. -/
def roundsTo (b num den : Nat) : Bool :=
  let value := 2 * (num * one)
  let above := (scaled b + scaled (b + 1)) * den
  let upper := value < above || (value == above && b % 2 == 0)
  let lower := b == 0 ||
    (let below := (scaled (b - 1) + scaled b) * den
     below < value || (value == below && b % 2 == 0))
  lower && upper

/-! ## Patterns and doubles -/

/-- The pattern of a double, its sign left out. -/
def pattern (x : Float) : Nat := x.toBits.toNat % signBit

/-- Whether the sign bit of a double is set. -/
def isNegative (x : Float) : Bool := signBit ≤ x.toBits.toNat

/-- Whether a double is neither infinite nor a NaN. -/
def isFinite (x : Float) : Bool := pattern x < infinityPattern

/-- The double of a sign and a pattern. -/
def ofPattern (negative : Bool) (b : Nat) : Float :=
  Float.ofBits (UInt64.ofNat (if negative then signBit + b else b))

/-- The greatest whole number that does not exceed a double; what is not finite stays as it is. -/
def floor (x : Float) : Float :=
  let b := pattern x
  if b < infinityPattern then
    let whole := scaled b / one
    let down := isNegative x && scaled b % one != 0
    ofPattern (isNegative x) (roundRatio (if down then whole + 1 else whole) 1)
  else x

/-- The double nearest to `digits * 10^exponent`, with a sign. Exponents far outside the range of
doubles are settled without computing the power. -/
def ofDecimal (negative : Bool) (digits : Nat) (exponent : Int) : Float :=
  let top := exponent + (Nat.toDigits 10 digits).length
  ofPattern negative <|
    if digits = 0 then 0
    else if 400 < top then infinityPattern
    else if top < -400 then 0
    else if 0 ≤ exponent then roundRatio (digits * Nat.pow 10 exponent.toNat) 1
    else roundRatio digits (Nat.pow 10 (-exponent).toNat)

end EngineDuel.Number

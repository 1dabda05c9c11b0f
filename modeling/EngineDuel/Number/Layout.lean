import EngineDuel.Number.Shortest

/-!
# Ways to write a double

Four layouts write the same digits: `plain` in reports and command lines, `signed` where a change is
shown, `described` where a message shows a value with its kind, and `exchanged` in JSON. `fixed`
writes a number of places after the point instead, a half going to the even neighbour.
-/

namespace EngineDuel.Number

/-- Which of the equivalent texts of a decimal is written. -/
structure Layout where
  /-- The scientific exponents that are written without an exponent; `none` for all. -/
  positional : Option (Int × Int)
  /-- Whether a whole number ends in `.0`. -/
  pointAlways : Bool
  /-- Whether a positive exponent has a sign. -/
  exponentSigned : Bool
  /-- Whether a positive number has a sign. -/
  signed : Bool
  deriving Repr

namespace Layout

/-- Reports and command lines: no exponent, and no point in a whole number. -/
def plain : Layout := ⟨none, false, false, false⟩

/-- Changes: as `plain`, with a sign also on what is not negative. -/
def withSign : Layout := { plain with signed := true }

/-- Messages about a value: a point always, an exponent below `1e-4` and from `1e16`. -/
def described : Layout := ⟨some (-4, 15), true, false, false⟩

/-- JSON: a point always, an exponent below `1e-5` and from `1e+16`. -/
def exchanged : Layout := ⟨some (-5, 15), true, true, false⟩

end Layout

/-- The decimal digits of a natural number. -/
def digitsOf (n : Nat) : List Char := Nat.toDigits 10 n

/-- A decimal without an exponent. -/
def positionalText (pointAlways : Bool) (d : Decimal) : List Char :=
  let ds := digitsOf d.digits
  let point := ds.length + d.exponent
  if 0 ≤ d.exponent then
    ds ++ List.replicate d.exponent.toNat '0' ++ (if pointAlways then ['.', '0'] else [])
  else if 0 < point then ds.take point.toNat ++ '.' :: ds.drop point.toNat
  else '0' :: '.' :: List.replicate (-point).toNat '0' ++ ds

/-- A decimal with an exponent. -/
def scientificText (exponentSigned : Bool) (d : Decimal) : List Char :=
  let ds := digitsOf d.digits
  let e := ds.length + d.exponent - 1
  let fraction := if ds.length = 1 then [] else '.' :: ds.drop 1
  let sign := if e < 0 then ['-'] else if exponentSigned then ['+'] else []
  ds.take 1 ++ fraction ++ 'e' :: sign ++ digitsOf e.natAbs

/-- A decimal in a layout, without a sign. -/
def Layout.unsignedText (layout : Layout) (d : Decimal) : List Char :=
  let e := (digitsOf d.digits).length + d.exponent - 1
  match layout.positional with
  | none => positionalText layout.pointAlways d
  | some (low, high) =>
    if low ≤ e && e ≤ high || d.digits == 0 then positionalText layout.pointAlways d
    else scientificText layout.exponentSigned d

/-- The sign of a number in a layout. -/
def Layout.sign (layout : Layout) (negative : Bool) : List Char :=
  if negative then ['-'] else if layout.signed then ['+'] else []

/-- A double in a layout, as characters. -/
def Layout.chars (layout : Layout) (x : Float) : List Char :=
  let b := pattern x
  if b < infinityPattern then
    layout.sign (isNegative x) ++ layout.unsignedText (shortest b)
  else if b = infinityPattern then layout.sign (isNegative x) ++ ['i', 'n', 'f']
  else ['N', 'a', 'N']

/-- A double in a layout. -/
def Layout.text (layout : Layout) (x : Float) : String := String.ofList (layout.chars x)

/-- A double in reports and command lines. -/
def plain (x : Float) : String := Layout.plain.text x

/-- The whole number nearest to `num / den`, a half going to the even neighbour. -/
def nearest (num den : Nat) : Nat :=
  let q := num / den
  let r := num % den
  if 2 * r < den then q
  else if den < 2 * r then q + 1
  else if q % 2 = 0 then q else q + 1

/-- A double with `places` digits after the point. -/
def fixed (places : Nat) (x : Float) : String :=
  let b := pattern x
  if b < infinityPattern then
    let n := nearest (scaled b * Nat.pow 10 places) one
    let ds := digitsOf n
    let padded := List.replicate (places + 1 - ds.length) '0' ++ ds
    let whole := padded.take (padded.length - places)
    let fraction := padded.drop (padded.length - places)
    String.ofList (Layout.plain.sign (isNegative x) ++ whole
      ++ (if fraction.isEmpty then [] else '.' :: fraction))
  else plain x

end EngineDuel.Number

import EngineDuel.Number.Binary64

/-!
# Numbers read from text

A natural number is ASCII digits with an optional `+`. A double is an optional sign and either
digits with an optional point and an optional exponent, or one of the names `inf`, `infinity` and
`nan` in any case; nothing may stand around it.
-/

namespace EngineDuel.Number

/-- The value of an ASCII digit. -/
def digitValue (c : Char) : Nat := c.toNat - '0'.toNat

/-- The number that a list of ASCII digits denotes. -/
def ofDigits (ds : List Char) : Nat := ds.foldl (fun n c => n * 10 + digitValue c) 0

/-- A natural number up to `bound`. -/
def natural? (bound : Nat) (s : List Char) : Option Nat :=
  let ds := match s with
    | '+' :: rest => rest
    | _ => s
  if !ds.isEmpty && ds.all Char.isDigit && ofDigits ds ≤ bound then some (ofDigits ds) else none

/-- The parts of a number in decimal notation. -/
structure Numeral where
  negative : Bool
  whole : List Char
  fraction : List Char
  exponent : Int

namespace Numeral

/-- The double nearest to what a numeral denotes. -/
def toFloat (n : Numeral) : Float :=
  ofDecimal n.negative (ofDigits (n.whole ++ n.fraction)) (n.exponent - n.fraction.length)

/-- An optional sign at the start of a text, and the rest. -/
def readSign : List Char → Bool × List Char
  | '-' :: rest => (true, rest)
  | '+' :: rest => (false, rest)
  | s => (false, s)

/-- The exponent that a text consists of: a mark, an optional sign and digits, or nothing at all. -/
def readExponent? : List Char → Option Int
  | [] => some 0
  | c :: rest =>
    if c = 'e' || c = 'E' then
      let (negative, ds) := readSign rest
      if !ds.isEmpty && ds.all Char.isDigit then
        some (if negative then -(ofDigits ds : Int) else ofDigits ds)
      else none
    else none

/-- The numeral that a text consists of. -/
def read? (s : List Char) : Option Numeral :=
  let (negative, rest) := readSign s
  let whole := rest.takeWhile Char.isDigit
  let rest := rest.dropWhile Char.isDigit
  let (fraction, rest) := match rest with
    | '.' :: rest => (rest.takeWhile Char.isDigit, rest.dropWhile Char.isDigit)
    | _ => ([], rest)
  if whole.isEmpty && fraction.isEmpty then none
  else (readExponent? rest).map fun e => ⟨negative, whole, fraction, e⟩

end Numeral

/-- The double that a text consists of. -/
def float? (s : List Char) : Option Float :=
  let (negative, rest) := Numeral.readSign s
  let name := rest.map Char.toLower
  if name = ['i', 'n', 'f'] || name = ['i', 'n', 'f', 'i', 'n', 'i', 't', 'y'] then
    some (ofPattern negative infinityPattern)
  else if name = ['n', 'a', 'n'] then some (ofPattern false nanPattern)
  else (Numeral.read? s).map Numeral.toFloat

end EngineDuel.Number

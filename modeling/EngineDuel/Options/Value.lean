import EngineDuel.Number.Numeral
import EngineDuel.Text.Raw

/-!
# Values of options

How the text behind an option is read, and what may be wrong with it. A whole number is read digit by
digit, and the first thing that is wrong decides: a digit that is none, or a number that has grown too
large or too small for 64 bits.
-/

namespace EngineDuel.Options

/-- What is wrong with the text of a whole number. -/
inductive WholeFault where
  | empty
  | badDigit
  | tooLarge
  | tooSmall
  deriving DecidableEq, Repr

/-- What is wrong with the text of a value. -/
inductive ValueFault where
  /-- There is none. -/
  | missing
  | whole (fault : WholeFault)
  /-- A number above `bound` or below zero. -/
  | outside (n : Int) (bound : Nat)
  /-- No double; the text may be empty. -/
  | noDouble (empty : Bool)
  /-- Bytes that are not UTF-8, where a text is needed. -/
  | notText
  deriving DecidableEq, Repr

namespace WholeFault

/-- What is wrong, in words. -/
def message : WholeFault → String
  | empty => "cannot parse integer from empty string"
  | badDigit => "invalid digit found in string"
  | tooLarge => "number too large to fit in target type"
  | tooSmall => "number too small to fit in target type"

end WholeFault

namespace ValueFault

/-- What is wrong, in words. -/
def message : ValueFault → String
  | missing => ""
  | whole fault => fault.message
  | outside n bound => toString n ++ " is not in 0..=" ++ toString bound
  | noDouble true => "cannot parse float from empty string"
  | noDouble false => "invalid float literal"
  | notText => ""

end ValueFault

/-! ## Whole numbers -/

/-- Reads more digits of a number between `low` and `high`. -/
def readDigits (low high : Int) (negative : Bool) : Int → List Char → Except WholeFault Int
  | n, [] => .ok n
  | n, c :: rest =>
    if !c.isDigit then .error .badDigit
    else
      let n := if negative then n * 10 - Number.digitValue c else n * 10 + Number.digitValue c
      if high < n then .error .tooLarge
      else if n < low then .error .tooSmall
      else readDigits low high negative n rest

/-- The whole number between `low` and `high` that a text consists of. It may have a sign, and a minus
only if numbers below zero are allowed. -/
def readWhole (low high : Int) : List Char → Except WholeFault Int
  | [] => .error .empty
  | ['+'] => .error .badDigit
  | ['-'] => .error .badDigit
  | '+' :: rest => readDigits low high false 0 rest
  | '-' :: rest => if low < 0 then readDigits low high true 0 rest else .error .badDigit
  | s => readDigits low high false 0 s

/-! ## Readers -/

/-- A text. -/
def text (value : RawText) : Except ValueFault String :=
  match value.text? with
  | some s => .ok s
  | none => .error .notText

/-- A path, which is not empty and need not be a text. -/
def rawPath (value : RawText) : Except ValueFault RawText :=
  if value = .text "" then .error .missing else .ok value

/-- A path that is not empty. It must be a text, as all names of files are here. -/
def path (value : String) : Except ValueFault String :=
  if value = "" then .error .missing else .ok value

/-- A natural number below `2^32`. It is read as a number with a sign, so minus zero is zero. -/
def word32 (value : String) : Except ValueFault UInt32 := do
  let n ← (readWhole (-0x8000000000000000) 0x7fffffffffffffff value.toList).mapError .whole
  if 0 ≤ n ∧ n < UInt32.size then return UInt32.ofNat n.toNat
  else throw (.outside n (UInt32.size - 1))

/-- A natural number below `2^64`. -/
def word64 (value : String) : Except ValueFault UInt64 := do
  let n ← (readWhole 0 (UInt64.size - 1) value.toList).mapError .whole
  return UInt64.ofNat n.toNat

/-- A double. -/
def float (value : String) : Except ValueFault Float :=
  match Number.float? value.toList with
  | some x => .ok x
  | none => .error (.noDouble (value = ""))

end EngineDuel.Options

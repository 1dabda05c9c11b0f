import EngineDuel.Number.Numeral
import EngineDuel.Toml.Value

/-!
# The simple values of TOML

Readers of strings, numbers, and dates and times. A reader takes what it reads from the front of a
text and fails if it cannot.
-/

namespace EngineDuel.Toml

/-- A reader of values in `α`. -/
abbrev Reader (α : Type) := StateT (List Char) Option α

namespace Reader

/-! ## Parts of readers -/

/-- The text that is left. -/
def left : Reader (List Char) := get

/-- One character of a class. -/
def one (p : Char → Bool) : Reader Char := fun s =>
  match s with
  | c :: rest => if p c then some (c, rest) else none
  | [] => none

/-- A certain text. -/
def exactly (t : String) : Reader Unit := fun s =>
  if t.toList.isPrefixOf s then some ((), s.drop t.length) else none

/-- The longest run of characters of a class. -/
def run (p : Char → Bool) : Reader (List Char) := fun s => some (s.takeWhile p, s.dropWhile p)

/-- Something, if it is there. -/
def maybe {α : Type} (r : Reader α) : Reader (Option α) := fun s =>
  match r s with
  | some (x, rest) => some (some x, rest)
  | none => some (none, s)

/-- The first of several that succeeds. -/
def first {α : Type} : List (Reader α) → Reader α
  | [] => fun _ => none
  | r :: rs => fun s => (r s).or (first rs s)

/-- A value that may have failed. -/
def ofOption {α : Type} : Option α → Reader α
  | some x => return x
  | none => fun _ => none

/-! ## Characters -/

/-- The blanks inside a line. -/
def isBlank (c : Char) : Bool := c = ' ' || c = '\t'

/-- The characters that may stand in comments and strings. -/
def isPlain (c : Char) : Bool := c = '\t' || (0x20 ≤ c.toNat && c.toNat ≠ 0x7f)

/-- The digits of a radix. -/
def isDigitOf (radix : Nat) (c : Char) : Bool :=
  let n := c.toNat
  if radix = 16 then
    c.isDigit || ('a' ≤ c && c ≤ 'f') || ('A' ≤ c && c ≤ 'F')
  else 0x30 ≤ n && n < 0x30 + radix

/-- The value of a digit. -/
def digitValue (c : Char) : Nat :=
  if c.isDigit then c.toNat - '0'.toNat
  else if 'a' ≤ c then c.toNat - 'a'.toNat + 10
  else c.toNat - 'A'.toNat + 10

/-- The number that digits denote. -/
def ofDigits (radix : Nat) (ds : List Char) : Nat :=
  ds.foldl (fun n c => n * radix + digitValue c) 0

/-- A line feed, with a carriage return before it or not. -/
def lineEnd : Reader Unit := first [exactly "\n", exactly "\r\n"]

/-! ## Strings -/

/-- The character of a code point. -/
def ofCode? (n : Nat) : Option Char := if n.isValidChar then some (Char.ofNat n) else none

/-- A character given by hexadecimal digits. -/
def codePoint (digits : Nat) : Reader Char := fun s =>
  let ds := s.take digits
  if ds.length = digits && ds.all (isDigitOf 16) then
    (ofCode? (ofDigits 16 ds)).map fun c => (c, s.drop digits)
  else none

/-- What follows a backslash. -/
def escaped : Reader Char := do
  match ← one fun _ => true with
  | 'b' => return '\x08'
  | 't' => return '\t'
  | 'n' => return '\n'
  | 'f' => return '\x0c'
  | 'r' => return '\r'
  | '"' => return '"'
  | '\\' => return '\\'
  | 'u' => codePoint 4
  | 'U' => codePoint 8
  | _ => fun _ => none

/-- The rest of a string on one line, of at most `fuel` characters, after a double quote. -/
def basicRest : Nat → Reader (List Char)
  | 0 => fun _ => none
  | fuel + 1 => do
    let c ← one isPlain
    if c = '"' then return []
    else if c = '\\' then
      let c ← escaped
      return c :: (← basicRest fuel)
    else return c :: (← basicRest fuel)

/-- A string between double quotes. -/
def basic : Reader (List Char) := do
  exactly "\""
  basicRest ((← left).length + 1)

/-- A string between single quotes. -/
def literal : Reader (List Char) := do
  exactly "'"
  let s ← run fun c => isPlain c && c ≠ '\''
  exactly "'"
  return s

/-- The end of a string over several lines, and the up to two quotes that stand before it. -/
def threeQuotes (quote : Char) : Reader (List Char) := fun s =>
  let n := (s.takeWhile (· = quote)).length
  if n < 3 then none else some (List.replicate (min n 5 - 3) quote, s.drop (min n 5))

/-- Blanks and line ends, in at most `fuel` pieces. -/
def foldedOf : Nat → Reader Unit
  | 0 => return ()
  | fuel + 1 => do
    let _ ← run isBlank
    match ← maybe lineEnd with
    | some () => foldedOf fuel
    | none => return ()

/-- What follows a backslash at the end of a line: blanks and line ends have no meaning there. -/
def foldedLine : Reader Unit := do
  let _ ← run isBlank
  lineEnd
  foldedOf ((← left).length + 1)

/-- The rest of a string over several lines, of at most `fuel` characters. -/
def longRest (quote : Char) (escapes : Bool) : Nat → Reader (List Char)
  | 0 => fun _ => none
  | fuel + 1 => do
    match ← maybe (threeQuotes quote) with
    | some last => return last
    | none =>
      match ← maybe lineEnd with
      | some () => return '\n' :: (← longRest quote escapes fuel)
      | none =>
        let c ← one isPlain
        if escapes && c = '\\' then
          match ← maybe foldedLine with
          | some () => longRest quote escapes fuel
          | none =>
            let c ← escaped
            return c :: (← longRest quote escapes fuel)
        else return c :: (← longRest quote escapes fuel)

/-- A string over several lines; a line end right at its start does not count. -/
def long (quote : Char) (escapes : Bool) : Reader (List Char) := do
  exactly (String.ofList [quote, quote, quote])
  let _ ← maybe lineEnd
  longRest quote escapes ((← left).length + 1)

/-- A string. -/
def string : Reader String := do
  let s ← first [long '"' true, basic, long '\'' false, literal]
  return String.ofList s

/-! ## Numbers -/

/-- Digits with single underscores between them, which are dropped. -/
def digitsOf (radix : Nat) : Nat → Reader (List Char)
  | 0 => fun _ => none
  | fuel + 1 => do
    let d ← one (isDigitOf radix)
    match ← maybe (one (· = '_')) with
    | some _ => return d :: (← digitsOf radix fuel)
    | none =>
      match ← maybe (digitsOf radix fuel) with
      | some ds => return d :: ds
      | none => return [d]

/-- Digits of a radix. -/
def digits (radix : Nat) : Reader (List Char) := do digitsOf radix (← left).length

/-- A sign, if there is one: whether it is a minus sign. -/
def sign : Reader Bool := do
  match ← maybe (one fun c => c = '+' || c = '-') with
  | some c => return c = '-'
  | none => return false

/-- A whole number in decimal notation: a zero stands alone. -/
def wholePart : Reader (List Char) := do
  match ← maybe (exactly "0") with
  | some () => return ['0']
  | none => digits 10

/-- A number of 64 bits with a sign. -/
def word (n : Int) : Reader Toml :=
  if -0x8000000000000000 ≤ n && n < 0x8000000000000000 then return .integer n else fun _ => none

/-- A whole number in another radix. -/
def radixInteger : Reader Toml := do
  let radix ← first [
    do exactly "0x"; return 16,
    do exactly "0o"; return 8,
    do exactly "0b"; return 2]
  word (ofDigits radix (← digits radix))

/-- A whole number in decimal notation. -/
def decimalInteger : Reader Toml := do
  let negative ← sign
  let n : Int := ofDigits 10 (← wholePart)
  word (if negative then -n else n)

/-- An exponent. -/
def exponent : Reader Int := do
  let _ ← one fun c => c = 'e' || c = 'E'
  let negative ← sign
  let n : Int := ofDigits 10 (← digits 10)
  return if negative then -n else n

/-- A fraction. -/
def fraction : Reader (List Char) := do
  exactly "."
  digits 10

/-- A number with a fraction or an exponent. One that is too large is refused unless it has a minus
sign. -/
def decimalFloat : Reader Toml := do
  let negative ← sign
  let whole ← wholePart
  let f ← maybe fraction
  let e ← maybe exponent
  if f.isNone && e.isNone then fun _ => none
  else
    let x := Number.Numeral.toFloat ⟨negative, whole, f.getD [], e.getD 0⟩
    if x.isInf && !negative then fun _ => none else return .float x

/-- Infinity, or not a number. -/
def specialFloat : Reader Toml := do
  let negative ← sign
  let infinite ← first [do exactly "inf"; return true, do exactly "nan"; return false]
  return .float <| Number.ofPattern negative <|
    if infinite then Number.infinityPattern else Number.nanPattern

/-! ## Dates and times -/

/-- A number of so many digits within bounds. -/
def field (width low high : Nat) : Reader Nat := fun s =>
  let ds := s.take width
  let n := ofDigits 10 ds
  if ds.length = width && ds.all Char.isDigit && low ≤ n && n ≤ high then some (n, s.drop width)
  else none

/-- The number of days of a month. -/
def daysOf (year month : Nat) : Nat :=
  if month = 2 then
    if year % 4 = 0 && (year % 100 ≠ 0 || year % 400 = 0) then 29 else 28
  else if month = 4 || month = 6 || month = 9 || month = 11 then 30
  else 31

/-- A date. -/
def date : Reader Unit := do
  let year ← field 4 0 9999
  exactly "-"
  let month ← field 2 1 12
  exactly "-"
  let _ ← field 2 1 (daysOf year month)

/-- A time of day. -/
def time : Reader Unit := do
  let _ ← field 2 0 23
  exactly ":"
  let _ ← field 2 0 59
  exactly ":"
  let _ ← field 2 0 60
  let _ ← maybe do
    exactly "."
    let _ ← one Char.isDigit
    run Char.isDigit

/-- The difference to universal time. -/
def zone : Reader Unit :=
  first [
    do let _ ← one fun c => c = 'Z' || c = 'z',
    do
      let _ ← one fun c => c = '+' || c = '-'
      let _ ← field 2 0 23
      exactly ":"
      let _ ← field 2 0 59]

/-- A date, a time or both. -/
def moment : Reader Toml :=
  first [
    do
      date
      let _ ← maybe do
        let _ ← one fun c => c = 'T' || c = 't' || c = ' '
        time
        maybe zone
      return .moment,
    do time; return .moment]

/-- A value that is neither an array nor a table. -/
def scalar : Reader Toml :=
  first [
    do return .text (← string),
    do exactly "true"; return .bool true,
    do exactly "false"; return .bool false,
    moment, decimalFloat, specialFloat, radixInteger, decimalInteger]

end Reader

end EngineDuel.Toml

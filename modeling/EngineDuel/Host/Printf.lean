import EngineDuel.Text.Raw

/-!
# Formatted output

The texts of `echo` and `printf`: escapes that begin with a backslash, and conversions that begin
with a percent sign and take one argument each. A format is used again as long as arguments are left.

All texts are octets.
-/

namespace EngineDuel.Host.Printf

/-! ## Escapes -/

/-- Whether a character is an octal digit. -/
def isOctal (c : Char) : Bool := '0' ≤ c && c ≤ '7'

/-- The byte that octal digits denote. -/
def octalByte (ds : List Char) : UInt8 :=
  UInt8.ofNat (ds.foldl (fun n c => n * 8 + (c.toNat - '0'.toNat)) 0)

/-- The byte that a letter after a backslash stands for. -/
def letterByte? : Char → Option UInt8
  | '\\' => some 0x5c
  | 'a' => some 0x07
  | 'b' => some 0x08
  | 'f' => some 0x0c
  | 'n' => some 0x0a
  | 'r' => some 0x0d
  | 't' => some 0x09
  | 'v' => some 0x0b
  | _ => none

/-- What a backslash begins, from what follows it, and what comes after that. -/
def escape (s : List Char) : List UInt8 × List Char :=
  match s with
  | c :: rest =>
    if isOctal c then
      let ds := (s.take 3).takeWhile isOctal
      ([octalByte ds], s.drop ds.length)
    else
      match letterByte? c with
      | some b => ([b], rest)
      | none => ([0x5c], s)
  | [] => ([0x5c], [])

/-- The same where an octal number may begin with a zero that does not count. -/
def argumentEscape (s : List Char) : List UInt8 × List Char :=
  match s with
  | '0' :: rest =>
    let ds := (rest.take 3).takeWhile isOctal
    ([octalByte ds], rest.drop ds.length)
  | _ => escape s

/-- Bytes, and whether nothing is to be written after them. -/
structure Piece where
  data : List UInt8 := []
  stop : Bool := false

/-- A text with the escapes of an argument; `\c` stops. `fuel` is the number of characters. -/
def argument : Nat → List Char → Piece
  | 0, _ => {}
  | _, [] => {}
  | _ + 1, '\\' :: 'c' :: _ => { stop := true }
  | fuel + 1, '\\' :: rest =>
    let (bytes, after) := argumentEscape rest
    let p := argument fuel after
    { p with data := bytes ++ p.data }
  | fuel + 1, c :: rest =>
    let p := argument fuel rest
    { p with data := Text.ofOctets [c] ++ p.data }

/-- What `echo` writes. -/
def echo (escapes newline : Bool) (args : List (List Char)) : List UInt8 :=
  let text := Text.join [' '] args
  let p : Piece := if escapes then argument text.length text
    else { data := Text.ofOctets text }
  if p.stop || !newline then p.data else p.data ++ [Text.lineFeed]

/-- What an `echo` writes that knows `-n` only, and escapes in its arguments. -/
def shellEcho (args : List (List Char)) : List UInt8 :=
  match args with
  | ['-', 'n'] :: rest => echo true false rest
  | _ => echo true true args

/-- What an `echo` writes that knows `-n`, `-e` and `-E`. -/
def plainEcho (escapes newline : Bool) : List (List Char) → List UInt8
  | [] => echo escapes newline []
  | arg :: rest =>
    match arg with
    | '-' :: c :: more =>
      if (c :: more).all fun c => c = 'n' || c = 'e' || c = 'E' then
        let last := ((c :: more).filter (· ≠ 'n')).getLast?
        plainEcho (last.elim escapes (· == 'e')) (newline && !(c :: more).contains 'n') rest
      else echo escapes newline (arg :: rest)
    | _ => echo escapes newline (arg :: rest)

/-! ## Numbers as arguments -/

/-- The digits of a number at the start of a text in a base, as their value. -/
def digitsValue (base : Nat) (value : Char → Option Nat) (s : List Char) : Option Nat :=
  if s.isEmpty then none
  else s.foldl (fun n c => do
    let n ← n
    let d ← value c
    if d < base then some (n * base + d) else none) (some 0)

/-- The value of a digit of any base up to 16. -/
def anyDigit (c : Char) : Option Nat :=
  if c.isDigit then some (c.toNat - '0'.toNat)
  else if 'a' ≤ c && c ≤ 'f' then some (c.toNat - 'a'.toNat + 10)
  else if 'A' ≤ c && c ≤ 'F' then some (c.toNat - 'A'.toNat + 10)
  else none

/-- A natural number in decimal, octal or hexadecimal notation. -/
def natural? : List Char → Option Nat
  | '0' :: 'x' :: ds => digitsValue 16 anyDigit ds
  | '0' :: 'X' :: ds => digitsValue 16 anyDigit ds
  | ['0'] => some 0
  | '0' :: ds => digitsValue 8 anyDigit ds
  | ds => digitsValue 10 anyDigit ds

/-- A whole number. -/
def integer? (s : List Char) : Option Int :=
  match s with
  | '-' :: ds => (natural? ds).map fun n => -(n : Int)
  | '+' :: ds => (natural? ds).map Int.ofNat
  | '\'' :: c :: _ => some c.toNat
  | '"' :: c :: _ => some c.toNat
  | ds => (natural? ds).map Int.ofNat

/-! ## Formats -/

/-- How a conversion is laid out. -/
structure Layout where
  left : Bool := false
  zeros : Bool := false
  plus : Bool := false
  width : Nat := 0
  precision : Option Nat := none

/-- Bytes padded to a width. -/
def pad (l : Layout) (zeros : Bool) (data : List UInt8) : List UInt8 :=
  let missing := l.width - data.length
  if l.left then data ++ List.replicate missing 0x20
  else if zeros then
    let sign := data.takeWhile fun b => b = 0x2d || b = 0x2b
    sign ++ List.replicate missing 0x30 ++ data.drop sign.length
  else List.replicate missing 0x20 ++ data

/-- A whole number with at least so many digits, as the precision says. -/
def numberText (l : Layout) (sign digits : List Char) : List UInt8 :=
  let ds := List.replicate ((l.precision.getD 1) - digits.length) '0' ++ digits
  pad l (l.zeros && l.precision.isNone) (Text.ofOctets (sign ++ ds))

/-- What a use of a format wrote and left. -/
structure Written where
  data : List UInt8 := []
  args : List (List Char)
  stop : Bool := false
  /-- The arguments that are no numbers though they should be. -/
  bad : List (List Char) := []
  /-- Whether an argument was asked for. -/
  used : Bool := false

/-- One conversion. -/
def convert (l : Layout) (kind : Char) (args : List (List Char)) : Written :=
  let arg := args.headD []
  let rest := args.drop 1
  let number : Int × List (List Char) :=
    if args.isEmpty then (0, [])
    else match integer? arg with
      | some n => (n, [])
      | none => (0, [arg])
  let unsigned (base : Nat) : List Char :=
    Nat.toDigits base (if 0 ≤ number.1 then number.1.toNat else (UInt64.size + number.1).toNat)
  match kind with
  | 's' =>
    let data := Text.ofOctets arg
    { data := pad l false (l.precision.elim data data.take), args := rest, used := true }
  | 'c' =>
    { data := pad l false (Text.ofOctets (arg.take 1)), args := rest, used := true }
  | 'b' =>
    let p := argument arg.length arg
    { data := pad l false p.data, args := rest, stop := p.stop, used := true }
  | 'u' => { data := numberText l [] (unsigned 10), args := rest, bad := number.2, used := true }
  | 'o' => { data := numberText l [] (unsigned 8), args := rest, bad := number.2, used := true }
  | 'x' => { data := numberText l [] (unsigned 16), args := rest, bad := number.2, used := true }
  | 'X' =>
    { data := numberText l [] ((unsigned 16).map Char.toUpper), args := rest, bad := number.2
      used := true }
  | _ =>
    let sign := if number.1 < 0 then ['-'] else if l.plus then ['+'] else []
    { data := numberText l sign (Nat.toDigits 10 number.1.natAbs), args := rest, bad := number.2
      used := true }

/-- The number that a text starts with, and what follows. -/
def leadingNumber (s : List Char) : Nat × List Char :=
  let ds := s.takeWhile Char.isDigit
  (ds.foldl (fun n c => n * 10 + (c.toNat - '0'.toNat)) 0, s.drop ds.length)

/-- The layout after a percent sign, and what follows. -/
def layout (s : List Char) : Layout × List Char :=
  let isFlag (c : Char) : Bool := "-0+ #".toList.contains c
  let flags := s.takeWhile isFlag
  let (width, rest) := leadingNumber (s.dropWhile isFlag)
  let (precision, rest) := match rest with
    | '.' :: more =>
      let (n, rest) := leadingNumber more
      (some n, rest)
    | _ => (none, rest)
  (⟨flags.contains '-', flags.contains '0', flags.contains '+', width, precision⟩, rest)

/-- One use of a format. `fuel` is the number of its characters. -/
def once : Nat → List Char → List (List Char) → Written
  | 0, _, args => { args }
  | _, [], args => { args }
  | fuel + 1, '%' :: '%' :: rest, args =>
    let w := once fuel rest args
    { w with data := 0x25 :: w.data }
  | fuel + 1, '%' :: rest, args =>
    let (l, rest) := layout rest
    match rest with
    | [] => { args }
    | kind :: rest =>
      let first := convert l kind args
      if first.stop then first
      else
        let w := once fuel rest first.args
        { w with data := first.data ++ w.data, bad := first.bad ++ w.bad, used := true }
  | fuel + 1, '\\' :: rest, args =>
    let (bytes, after) := escape rest
    let w := once fuel after args
    { w with data := bytes ++ w.data }
  | fuel + 1, c :: rest, args =>
    let w := once fuel rest args
    { w with data := Text.ofOctets [c] ++ w.data }

/-- Uses a format until no argument is left, at most so many times. -/
def repeated (format : List Char) : Nat → List (List Char) → Written
  | 0, args => { args }
  | fuel + 1, args =>
    let first := once format.length format args
    if first.stop || first.args.isEmpty || !first.used then first
    else
      let w := repeated format fuel first.args
      { w with data := first.data ++ w.data, bad := first.bad ++ w.bad }

/-- What `printf` writes. -/
def printf (format : List Char) (args : List (List Char)) : Written :=
  repeated format (args.length + 1) args

end EngineDuel.Host.Printf

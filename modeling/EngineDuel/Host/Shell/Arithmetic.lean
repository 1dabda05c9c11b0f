import EngineDuel.Host.Printf
import EngineDuel.Host.Shell.Word

/-!
# Arithmetic of the shell

The value of what stands in `$((...))`: whole numbers of 64 bits, names, the usual operators and
parentheses. A truth is told as one or zero.
-/

namespace EngineDuel.Host.Shell.Arithmetic

/-- A token of an expression. -/
inductive Token where
  | number (n : Int)
  | name (s : List Char)
  | sign (s : List Char)
  deriving DecidableEq, Repr

/-- The signs of more than one character. -/
def longSigns : List (List Char) :=
  ["<=", ">=", "==", "!=", "&&", "||", "<<", ">>"].map String.toList

/-- The tokens of an expression; `fuel` is more than the number of characters. -/
def tokens? : Nat → List Char → Option (List Token)
  | 0, _ => none
  | _, [] => some []
  | fuel + 1, c :: rest => do
    let s := c :: rest
    if Text.isBlank c then tokens? fuel rest
    else if c.isDigit then
      let digits := s.takeWhile Char.isAlphanum
      let n ← Printf.natural? digits
      return .number n :: (← tokens? fuel (s.drop digits.length))
    else if isNameStart c then
      return .name (s.takeWhile isNameChar) :: (← tokens? fuel (s.dropWhile isNameChar))
    else
      match longSigns.find? fun sign => sign.isPrefixOf s with
      | some sign => return .sign sign :: (← tokens? fuel (s.drop 2))
      | none =>
        if "+-*/%()<>!&|^~?:".toList.contains c then
          return .sign [c] :: (← tokens? fuel rest)
        else none

/-- A number of 64 bits. -/
def wrap (n : Int) : Int := Int.bmod n UInt64.size

/-- One or zero. -/
def truth (b : Bool) : Int := if b then 1 else 0

/-- The operators, those that bind least first. -/
def levels : List (List (List Char)) :=
  [["||"], ["&&"], ["|"], ["^"], ["&"], ["==", "!="], ["<=", ">=", "<", ">"], ["<<", ">>"],
   ["+", "-"], ["*", "/", "%"]].map fun names => names.map String.toList

/-- The value of an operator; none for a division by zero. -/
def combine? (sign : List Char) (a b : Int) : Option Int :=
  match String.ofList sign with
  | "||" => some (truth (a ≠ 0 || b ≠ 0))
  | "&&" => some (truth (a ≠ 0 && b ≠ 0))
  | "|" => some (Int64.ofInt a ||| Int64.ofInt b).toInt
  | "^" => some (Int64.ofInt a ^^^ Int64.ofInt b).toInt
  | "&" => some (Int64.ofInt a &&& Int64.ofInt b).toInt
  | "==" => some (truth (a = b))
  | "!=" => some (truth (a ≠ b))
  | "<=" => some (truth (a ≤ b))
  | ">=" => some (truth (b ≤ a))
  | "<" => some (truth (a < b))
  | ">" => some (truth (b < a))
  | "<<" => some (wrap (a * Nat.pow 2 (b.toNat % 64)))
  | ">>" => some (a >>> (b.toNat % 64))
  | "+" => some (wrap (a + b))
  | "-" => some (wrap (a - b))
  | "*" => some (wrap (a * b))
  | "/" => if b = 0 then none else some (wrap (Int.tdiv a b))
  | "%" => if b = 0 then none else some (Int.tmod a b)
  | _ => none

mutual

/-- The value of an expression of some level and what follows it. -/
def level? (value : List Char → Option Int) :
    Nat → List (List (List Char)) → List Token → Option (Int × List Token)
  | 0, _, _ => none
  | fuel + 1, [], ts => operand? value fuel ts
  | fuel + 1, signs :: above, ts => do
    let (a, rest) ← level? value fuel above ts
    more? value fuel signs above a rest

/-- More operators of the same level. -/
def more? (value : List Char → Option Int) :
    Nat → List (List Char) → List (List (List Char)) → Int → List Token →
      Option (Int × List Token)
  | 0, _, _, _, _ => none
  | fuel + 1, signs, above, a, ts =>
    match ts with
    | .sign s :: rest =>
      if signs.contains s then do
        let (b, rest) ← level? value fuel above rest
        more? value fuel signs above (← combine? s a b) rest
      else some (a, ts)
    | _ => some (a, ts)

/-- A number, a name, an expression in parentheses, or one of them after a sign. -/
def operand? (value : List Char → Option Int) : Nat → List Token → Option (Int × List Token)
  | 0, _ => none
  | _ + 1, .number n :: rest => some (n, rest)
  | _ + 1, .name s :: rest => (value s).map (·, rest)
  | fuel + 1, .sign s :: rest =>
    match s with
    | ['-'] => (operand? value fuel rest).map fun (n, rest) => (wrap (-n), rest)
    | ['+'] => operand? value fuel rest
    | ['!'] => (operand? value fuel rest).map fun (n, rest) => (truth (n = 0), rest)
    | ['~'] => (operand? value fuel rest).map fun (n, rest) => (-n - 1, rest)
    | ['('] => do
      match ← level? value fuel levels rest with
      | (n, .sign [')'] :: rest) => return (n, rest)
      | _ => none
    | _ => none
  | _ + 1, [] => none

end

/-- The value of an expression, where `value` tells the numbers that names stand for. -/
def eval? (value : List Char → Option Int) (source : List Char) : Option Int := do
  let ts ← tokens? (source.length + 1) source
  if ts.isEmpty then return 0
  match ← level? value (20 * (ts.length + 1)) levels ts with
  | (n, []) => return n
  | (c, .sign ['?'] :: rest) => do
    match ← level? value (20 * (ts.length + 1)) levels rest with
    | (a, .sign [':'] :: rest) => do
      match ← level? value (20 * (ts.length + 1)) levels rest with
      | (b, []) => return if c ≠ 0 then a else b
      | _ => none
    | _ => none
  | _ => none

end EngineDuel.Host.Shell.Arithmetic

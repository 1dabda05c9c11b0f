import EngineDuel.Json.Read
import EngineDuel.Number.Numeral

/-!
# Data from JSON

A decoder takes a value apart. A record is an object, whose members may come in any order and of
which unknown ones are passed over, but none of which may come twice; or it is an array of the
members' values in order. Where a member has a default it may be left out, in an array only at the
end.
-/

namespace EngineDuel.Json

/-- A decoder of values in `α`. -/
abbrev Decoder (α : Type) := Json → Option α

namespace Decoder

/-- A text. -/
def text : Decoder String
  | .string s => s
  | _ => none

/-- A value or `null`. -/
def optional {α : Type} (d : Decoder α) : Decoder (Option α)
  | .null => some none
  | j => (d j).map some

/-- A natural number of 64 bits, written with digits only. -/
def word : Decoder UInt64
  | .number s =>
    if s.all Char.isDigit then (Number.natural? (UInt64.size - 1) s).map UInt64.ofNat else none
  | _ => none

/-- A finite double. -/
def float : Decoder Float
  | .number s => do
    let x ← Number.float? s
    if Number.isFinite x then some x else none
  | _ => none

/-- One of several words: a text, or an object with that name and nothing in it. -/
def oneOf {α : Type} (words : List (String × α)) : Decoder α
  | .string (some s) => words.lookup s
  | .object [(some s, .null)] => words.lookup s
  | _ => none

/-- The members of a record with these names, each given at most once. -/
def members (names : List String) : Decoder (List (Option Json))
  | .array items =>
    if items.length ≤ names.length then
      some (names.mapIdx fun i _ => items[i]?)
    else none
  | .object ms =>
    if ms.all fun m => m.1.isSome then
      names.mapM fun name =>
        match ms.filter fun m => m.1 == some name with
        | [] => some none
        | [m] => some (some m.2)
        | _ => none
    else none
  | _ => none

/-- A member that must be given. -/
def required {α : Type} (d : Decoder α) (member : Option Json) : Option α := member.bind d

/-- A member that has a default. -/
def withDefault {α : Type} (default : α) (d : Decoder α) : Option Json → Option α
  | none => some default
  | some j => d j

end Decoder

/-- The data of a text. -/
def decode? {α : Type} (d : Decoder α) (s : String) : Option α := (read? s.toList).bind d

end EngineDuel.Json

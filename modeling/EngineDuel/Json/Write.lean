import EngineDuel.Json.Value

/-!
# Writing JSON

The shortest text of a value: no blanks, members in order, and only those characters escaped that
must be. A written value stands on one line.

Not all data has a form in JSON. What is written member by member breaks off where a member has none,
and what was written before remains.
-/

namespace EngineDuel.Json

/-- A hexadecimal digit. -/
def hexDigit (n : Nat) : Char := (Nat.toDigits 16 n).headD '0'

/-- A character inside a written string. -/
def writeChar (c : Char) : List Char :=
  if c = '"' then ['\\', '"']
  else if c = '\\' then ['\\', '\\']
  else if c = '\x08' then ['\\', 'b']
  else if c = '\x0c' then ['\\', 'f']
  else if c = '\n' then ['\\', 'n']
  else if c = '\r' then ['\\', 'r']
  else if c = '\t' then ['\\', 't']
  else if c.toNat < 0x20 then
    ['\\', 'u', '0', '0', hexDigit (c.toNat / 16), hexDigit (c.toNat % 16)]
  else [c]

/-- The text between the quotes of a written string. What denotes no text is written as half of a
surrogate pair. -/
def writeInner : Option String → List Char
  | some s => s.toList.flatMap writeChar
  | none => ['\\', 'u', 'd', '8', '0', '0']

/-- A written string. -/
def writeString (s : Option String) : List Char := '"' :: writeInner s ++ ['"']

mutual

/-- A value as characters. -/
def write : Json → List Char
  | .null => ['n', 'u', 'l', 'l']
  | .bool true => ['t', 'r', 'u', 'e']
  | .bool false => ['f', 'a', 'l', 's', 'e']
  | .number text => text
  | .string text => writeString text
  | .array items => '[' :: writeItems items ++ [']']
  | .object members => '\x7b' :: writeMembers members ++ ['\x7d']

/-- The items of an array, with commas between them. -/
def writeItems : List Json → List Char
  | [] => []
  | item :: rest => write item ++ writeMoreItems rest

/-- The items of an array after the first. -/
def writeMoreItems : List Json → List Char
  | [] => []
  | item :: rest => ',' :: write item ++ writeMoreItems rest

/-- The members of an object, with commas between them. -/
def writeMembers : List (Option String × Json) → List Char
  | [] => []
  | (name, value) :: rest => writeString name ++ ':' :: write value ++ writeMoreMembers rest

/-- The members of an object after the first. -/
def writeMoreMembers : List (Option String × Json) → List Char
  | [] => []
  | (name, value) :: rest =>
    ',' :: writeString name ++ ':' :: write value ++ writeMoreMembers rest

end

/-- The text of a value. -/
def render (j : Json) : String := String.ofList j.write

/-! ## Data without a form -/

/-- What was written before something without a form, and what is said about that. -/
structure Unfinished where
  text : List Char
  reason : String
  deriving DecidableEq, Repr

/-- The form of data that may have none. -/
abbrev Draft := Except Unfinished Json

/-- Members whose values may have no form, written in order. -/
def draftMembers : List (String × Draft) → Except Unfinished (List (String × Json))
  | [] => .ok []
  | (name, .error u) :: _ => .error { u with text := writeString name ++ ':' :: u.text }
  | (name, .ok value) :: rest =>
    match draftMembers rest with
    | .ok members => .ok ((name, value) :: members)
    | .error u =>
      .error { u with text := writeString name ++ ':' :: write value ++ ',' :: u.text }

/-- An object with named members whose values may have no form. -/
def draft (members : List (String × Draft)) : Draft :=
  match draftMembers members with
  | .ok members => .ok (record members)
  | .error u => .error { u with text := '\x7b' :: u.text }

end EngineDuel.Json

import EngineDuel.Number.Layout

/-!
# JSON values

The data that JSON texts denote. A number is kept as its text, since the texts of JSON tell whole
numbers from others. A string with half of a surrogate pair denotes no text; it is the string `none`,
so that such a string can be passed over but not used.
-/

namespace EngineDuel

/-- A JSON value. -/
inductive Json where
  | null
  | bool (b : Bool)
  | number (text : List Char)
  | string (text : Option String)
  | array (items : List Json)
  | object (members : List (Option String × Json))
  deriving Repr, Inhabited

namespace Json

/-- A text. -/
def text (s : String) : Json := .string (some s)

/-- A natural number. -/
def nat (n : Nat) : Json := .number (Number.digitsOf n)

/-- A double; what is not finite has no number in JSON. -/
def float (x : Float) : Json :=
  if Number.isFinite x then .number (Number.Layout.exchanged.chars x) else .null

/-- A value that may be absent. -/
def optional {α : Type} (form : α → Json) : Option α → Json
  | none => .null
  | some x => form x

/-- An object with named members. -/
def record (members : List (String × Json)) : Json :=
  .object (members.map fun m => (some m.1, m.2))

/-- A list of texts. -/
def texts (ss : List String) : Json := .array (ss.map text)

end Json

end EngineDuel

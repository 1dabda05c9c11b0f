import EngineDuel.Json.Token

/-!
# Reading JSON

Tokens are read one by one. What is not finished yet, arrays and objects with the items that were
read so far, waits on a stack, so reading is one walk along the tokens, however deep a value is.
-/

namespace EngineDuel.Json

/-- An array or an object of which a part was read, last first. -/
inductive Frame where
  | array (items : List Json)
  /-- The value of the member `name` is being read. -/
  | object (members : List (Option String × Json)) (name : Option String)
  deriving Repr

/-- What may come next. -/
inductive Expecting where
  | value
  /-- A value, or the end of an array without items. -/
  | firstItem
  /-- The name of a member. -/
  | name (members : List (Option String × Json))
  /-- The name of a member, or the end of an object without members. -/
  | firstName
  /-- The colon after the name of a member. -/
  | colon (members : List (Option String × Json)) (name : Option String)
  /-- What follows a value. -/
  | after (value : Json)
  deriving Repr

/-- The value that a single token denotes. -/
def ofToken? : Token → Option Json
  | .null => some .null
  | .bool b => some (.bool b)
  | .number text => some (.number text)
  | .string text => some (.string text)
  | _ => none

/-- What follows one token. -/
def step? (stack : List Frame) (now : Expecting) (token : Token) :
    Option (List Frame × Expecting) :=
  match now, token with
  | .firstItem, .closeArray =>
    match stack with
    | .array items :: stack => some (stack, .after (.array items.reverse))
    | _ => none
  | .firstName, .closeObject => some (stack, .after (.object []))
  | .firstName, .string name => some (stack, .colon [] name)
  | .name members, .string name => some (stack, .colon members name)
  | .colon members name, .colon => some (.object members name :: stack, .value)
  | .after value, .comma =>
    match stack with
    | .array items :: stack => some (.array (value :: items) :: stack, .value)
    | .object members name :: stack => some (stack, .name ((name, value) :: members))
    | [] => none
  | .after value, .closeArray =>
    match stack with
    | .array items :: stack => some (stack, .after (.array (value :: items).reverse))
    | _ => none
  | .after value, .closeObject =>
    match stack with
    | .object members name :: stack =>
      some (stack, .after (.object ((name, value) :: members).reverse))
    | _ => none
  | .value, .openArray => some (.array [] :: stack, .firstItem)
  | .firstItem, .openArray => some (.array [] :: stack, .firstItem)
  | .value, .openObject => some (stack, .firstName)
  | .firstItem, .openObject => some (stack, .firstName)
  | .value, token => (ofToken? token).map fun v => (stack, .after v)
  | .firstItem, token => (ofToken? token).map fun v => (stack, .after v)
  | _, _ => none

/-- The value that tokens complete. -/
def ofTokens? : List Frame → Expecting → List Token → Option Json
  | [], .after value, [] => some value
  | _, _, [] => none
  | stack, now, token :: rest => do
    let (stack, now) ← step? stack now token
    ofTokens? stack now rest

/-- The value that a text denotes. -/
def read? (s : List Char) : Option Json := do
  let tokens ← Token.ofText? s
  ofTokens? [] .value tokens

end EngineDuel.Json

import EngineDuel.Toml.Scalar

/-!
# Reading TOML

A document is a sequence of lines: keys with values, headers, comments and blanks. Arrays may go over
several lines, tables between braces may not. Arrays, such tables and keys are at most so deep.
-/

namespace EngineDuel.Toml

namespace Reader

/-- From this depth on nesting is refused. -/
def depthLimit : Nat := 80

/-! ## Keys -/

/-- The characters of a key without quotes. -/
def isBare (c : Char) : Bool := c.isAlphanum || c = '_' || c = '-'

/-- One part of a key. -/
def simpleKey : Reader String := do
  let s ← first [basic, literal, do
    let c ← one isBare
    return c :: (← run isBare)]
  return String.ofList s

/-- The parts of a key, at most `fuel`, with blanks around each. -/
def keyParts : Nat → Reader (List String)
  | 0 => fun _ => none
  | fuel + 1 => do
    let _ ← run isBlank
    let part ← simpleKey
    let _ ← run isBlank
    match ← maybe (exactly ".") with
    | some () => return part :: (← keyParts fuel)
    | none => return [part]

/-- A key: the parts before the last, and the last. -/
def key : Reader (List String × String) := do
  let parts ← keyParts (depthLimit - 1)
  return (parts.dropLast, parts.getLast?.getD "")

/-! ## Values -/

/-- A comment. -/
def comment : Reader Unit := do
  exactly "#"
  let _ ← run isPlain

/-- Blanks, comments and line ends, in at most `fuel` pieces. -/
def spaceOf : Nat → Reader Unit
  | 0 => return ()
  | fuel + 1 => do
    let _ ← run isBlank
    match ← maybe (first [lineEnd, do comment; lineEnd]) with
    | some () => spaceOf fuel
    | none => return ()

/-- Blanks, comments and line ends. -/
def space : Reader Unit := do spaceOf ((← left).length + 1)

mutual

/-- A value inside `depth` others. -/
def valueOf : Nat → Nat → Reader Toml
  | 0, _ => fun _ => none
  | fuel + 1, depth => do
    match ← maybe (first [do exactly "["; return true, do exactly "\x7b"; return false]) with
    | none => scalar
    | some isArray =>
      if depthLimit ≤ depth + 1 then fun _ => none
      else if isArray then return .array (← itemsOf fuel (depth + 1))
      else
        let _ ← run isBlank
        match ← maybe (exactly "\x7d") with
        | some () => return .table .inline []
        | none => return .table .inline (← pairsOf fuel (depth + 1) [])

/-- The items of an array up to its end. -/
def itemsOf : Nat → Nat → Reader (List Toml)
  | 0, _ => fun _ => none
  | fuel + 1, depth => do
    space
    match ← maybe (exactly "]") with
    | some () => return []
    | none =>
      let item ← valueOf fuel depth
      space
      match ← maybe (exactly ",") with
      | some () => return item :: (← itemsOf fuel depth)
      | none =>
        exactly "]"
        return [item]

/-- The members of a table between braces up to its end. -/
def pairsOf : Nat → Nat → Members → Reader Members
  | 0, _, _ => fun _ => none
  | fuel + 1, depth, members => do
    let (path, name) ← key
    exactly "="
    let _ ← run isBlank
    let value ← valueOf fuel depth
    let members ← ofOption (addAt? path name value .inline members)
    let _ ← run isBlank
    match ← maybe (exactly ",") with
    | some () => pairsOf fuel depth members
    | none =>
      exactly "\x7d"
      return members

end

/-- A value. -/
def value : Reader Toml := do valueOf ((← left).length + 1) 0

/-! ## Documents -/

/-- The rest of a line after its content. -/
def lineRest : Reader Unit := do
  let _ ← run isBlank
  let _ ← maybe comment
  match ← left with
  | [] => return ()
  | _ => lineEnd

/-- A document of which a part was read. -/
structure Draft where
  members : Members := []
  /-- The table that keys are added to: the way to it and its name. -/
  place : Option (List String × String) := none

/-- Adds a value to the table that keys are added to. -/
def Draft.add? (d : Draft) (path : List String) (name : String) (v : Toml) : Option Draft := do
  let way := match d.place with
    | none => []
    | some (way, last) => way ++ [last]
  let members ← changeAt? false (addAt? path name v) way .header d.members
  return { d with members }

/-- A header. -/
def header (d : Draft) : Reader Draft := do
  exactly "["
  let several ← maybe (exactly "[")
  let (path, name) ← key
  exactly (if several.isSome then "]]" else "]")
  lineRest
  let change := if several.isSome then openTables? else openTable?
  let members ← ofOption (change path name d.members)
  return ⟨members, some (path, name)⟩

/-- A key with its value. -/
def member (d : Draft) : Reader Draft := do
  let (path, name) ← key
  exactly "="
  let _ ← run isBlank
  let v ← value
  lineRest
  ofOption (d.add? path name v)

/-- The lines of a document, at most `fuel`. -/
def linesOf : Nat → Draft → Reader Draft
  | 0, _ => fun _ => none
  | fuel + 1, d => do
    let _ ← run isBlank
    match ← left with
    | [] => return d
    | '\n' :: _ => do lineEnd; linesOf fuel d
    | '\r' :: _ => do lineEnd; linesOf fuel d
    | '#' :: _ => do comment; lineRest; linesOf fuel d
    | '[' :: _ => do linesOf fuel (← header d)
    | _ => do linesOf fuel (← member d)

end Reader

/-- The members of a document. A byte order mark at its start does not count. -/
def read? (s : List Char) : Option Members :=
  let s := match s with
    | '\ufeff' :: rest => rest
    | _ => s
  (Reader.linesOf (s.length + 1) {} s).map fun (d, _) => d.members

end EngineDuel.Toml

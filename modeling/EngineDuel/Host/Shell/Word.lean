import EngineDuel.Text.Blank

/-!
# Words of shell scripts

A word is a list of parts: text, and what is replaced when the word is expanded. Each part knows
whether it stands in quotes. What stands within `$(...)`, `$((...))` and after an operator in
`${...}` is kept as it was written and read when it is needed.

`word?` reads the parts of a word up to the first character that ends it.
-/

namespace EngineDuel.Host.Shell

/-- What is done with a parameter in `${...}`. -/
inductive Use where
  | value
  | length
  /-- `-`, `=`, `+` or `?`: what holds if it is unset, or with a colon if it is unset or empty. -/
  | fallback (kind : Char) (colon : Bool) (word : List Char)
  /-- `#` or `%`: the value without a start or an end that fits a pattern. -/
  | strip (fromEnd longest : Bool) (pattern : List Char)
  deriving DecidableEq, Repr

/-- A part of a word. -/
inductive Part where
  | text (s : List Char) (quoted : Bool)
  | parameter (name : List Char) (use : Use) (quoted : Bool)
  | command (source : List Char) (quoted : Bool)
  | arithmetic (source : List Char) (quoted : Bool)
  deriving DecidableEq, Repr

/-- A word. -/
abbrev Word := List Part

/-- A word with text before it; neighbouring text of the same kind is one part. -/
def Part.before (s : List Char) (quoted : Bool) : Word → Word
  | .text t q :: rest => if q = quoted then .text (s ++ t) q :: rest else .text s quoted :: .text t q :: rest
  | rest => .text s quoted :: rest

/-- The characters that a name may start with. -/
def isNameStart (c : Char) : Bool := c.isAlpha || c = '_'

/-- The characters of a name. -/
def isNameChar (c : Char) : Bool := c.isAlphanum || c = '_'

/-- Whether a text is a name. -/
def isName (s : List Char) : Bool :=
  match s with
  | c :: rest => isNameStart c && rest.all isNameChar
  | [] => false

/-- The parameters whose name is one sign. -/
def isSpecial (c : Char) : Bool := "@*#?$!-".toList.contains c

/-- The characters that end a word. -/
def endsWord (c : Char) : Bool := " \t\n;&|<>()".toList.contains c

/-- In which quotes a character stands. -/
inductive Quoting where
  | no
  | single
  | double
  deriving DecidableEq

/-- The text up to the sign that closes what `opening` opened, and what follows it; `depth` more
of them are open and `back` was read, last first. -/
def enclosed? (opening closing : Char) :
    Nat → Quoting → List Char → List Char → Option (List Char × List Char)
  | _, _, _, [] => none
  | d, .single, back, c :: rest =>
    enclosed? opening closing d (if c = '\'' then .no else .single) (c :: back) rest
  | d, q, back, '\\' :: c :: rest => enclosed? opening closing d q (c :: '\\' :: back) rest
  | d, .double, back, c :: rest =>
    enclosed? opening closing d (if c = '"' then .no else .double) (c :: back) rest
  | d, .no, back, c :: rest =>
    if c = '\'' then enclosed? opening closing d .single (c :: back) rest
    else if c = '"' then enclosed? opening closing d .double (c :: back) rest
    else if c = closing then
      match d with
      | 0 => some (back.reverse, rest)
      | d + 1 => enclosed? opening closing d .no (c :: back) rest
    else if c = opening then enclosed? opening closing (d + 1) .no (c :: back) rest
    else enclosed? opening closing d .no (c :: back) rest

/-- The use that the text after a name in `${...}` tells. -/
def use? : List Char → Option Use
  | [] => some .value
  | ':' :: c :: word => if "-=+?".toList.contains c then some (.fallback c true word) else none
  | '#' :: '#' :: pattern => some (.strip false true pattern)
  | '%' :: '%' :: pattern => some (.strip true true pattern)
  | '#' :: pattern => some (.strip false false pattern)
  | '%' :: pattern => some (.strip true false pattern)
  | c :: word => if "-=+?".toList.contains c then some (.fallback c false word) else none

/-- The name at the start of what stands in `${...}`, and the rest. -/
def parameterName (s : List Char) : List Char × List Char :=
  match s with
  | c :: rest =>
    if isNameStart c then (s.takeWhile isNameChar, s.dropWhile isNameChar)
    else if c.isDigit then (s.takeWhile Char.isDigit, s.dropWhile Char.isDigit)
    else if isSpecial c then ([c], rest)
    else ([], s)
  | [] => ([], [])

/-- The part that stands in `${...}`. -/
def braced? (quoted : Bool) (s : List Char) : Option Part :=
  match s with
  | '#' :: c :: rest =>
    let (name, after) := parameterName (c :: rest)
    if name ≠ [] && after = [] then some (.parameter name .length quoted)
    else (use? (c :: rest)).map fun use => .parameter ['#'] use quoted
  | _ =>
    let (name, after) := parameterName s
    if name = [] then none else (use? after).map fun use => .parameter name use quoted

/-- The part that begins with a dollar sign, from what follows that sign, and what follows the part.
A dollar sign that begins nothing is text. -/
def dollar? (quoted : Bool) (s : List Char) : Option (Part × List Char) :=
  match s with
  | '(' :: rest =>
    match rest with
    | '(' :: inner =>
      match enclosed? '(' ')' 0 .no [] inner with
      | some (source, ')' :: after) => some (.arithmetic source quoted, after)
      | _ => (enclosed? '(' ')' 0 .no [] rest).map fun (t, after) => (.command t quoted, after)
    | _ => (enclosed? '(' ')' 0 .no [] rest).map fun (t, after) => (.command t quoted, after)
  | '{' :: rest => do
    let (t, after) ← enclosed? '{' '}' 0 .no [] rest
    return (← braced? quoted t, after)
  | c :: rest =>
    if isNameStart c then
      some (.parameter (s.takeWhile isNameChar) .value quoted, s.dropWhile isNameChar)
    else if c.isDigit || isSpecial c then some (.parameter [c] .value quoted, rest)
    else some (.text ['$'] quoted, s)
  | [] => some (.text ['$'] quoted, [])

/-- What stands between backquotes, and what follows. -/
def backquoted? : List Char → List Char → Option (List Char × List Char)
  | _, [] => none
  | back, '\\' :: c :: rest =>
    backquoted? (if c = '\x60' || c = '\\' || c = '$' then c :: back else c :: '\\' :: back) rest
  | back, c :: rest => if c = '\x60' then some (back.reverse, rest) else backquoted? (c :: back) rest

/-- The parts up to the closing double quote, or up to the end of a text that is not `closed` by one,
and what follows; `fuel` is more than the number of characters. -/
def doubleQuoted? (closed : Bool) : Nat → List Char → Option (Word × List Char)
  | 0, _ => none
  | _, [] => if closed then none else some ([], [])
  | fuel + 1, '\\' :: c :: rest => do
    let (parts, after) ← doubleQuoted? closed fuel rest
    if c = '\n' then return (parts, after)
    else if "$\x60\"\\".toList.contains c then return (Part.before [c] true parts, after)
    else return (Part.before ['\\', c] true parts, after)
  | fuel + 1, '$' :: rest => do
    let (part, after) ← dollar? true rest
    let (parts, after) ← doubleQuoted? closed fuel after
    match part with
    | .text s q => return (Part.before s q parts, after)
    | part => return (part :: parts, after)
  | fuel + 1, c :: rest => do
    if c = '"' && closed then return ([], rest)
    else if c = '\x60' then
      let (source, after) ← backquoted? [] rest
      let (parts, after) ← doubleQuoted? closed fuel after
      return (.command source true :: parts, after)
    else
      let (parts, after) ← doubleQuoted? closed fuel rest
      return (Part.before [c] true parts, after)

/-- The parts of a word and what follows it; `stops` tells the characters that end it and `fuel` is
more than the number of characters. -/
def word? (stops : Char → Bool) : Nat → List Char → Option (Word × List Char)
  | 0, _ => none
  | _, [] => some ([], [])
  | fuel + 1, '\\' :: c :: rest => do
    let (parts, after) ← word? stops fuel rest
    return (if c = '\n' then parts else Part.before [c] true parts, after)
  | fuel + 1, '\'' :: rest => do
    let text := rest.takeWhile (· ≠ '\'')
    match rest.dropWhile (· ≠ '\'') with
    | _ :: after =>
      let (parts, after) ← word? stops fuel after
      return (Part.before text true parts, after)
    | [] => none
  | fuel + 1, '"' :: rest => do
    let (inner, after) ← doubleQuoted? true (rest.length + 1) rest
    let (parts, after) ← word? stops fuel after
    return (if inner = [] then Part.before [] true parts else inner ++ parts, after)
  | fuel + 1, '$' :: rest => do
    let (part, after) ← dollar? false rest
    let (parts, after) ← word? stops fuel after
    match part with
    | .text s q => return (Part.before s q parts, after)
    | part => return (part :: parts, after)
  | fuel + 1, c :: rest => do
    if stops c then return ([], c :: rest)
    else if c = '\x60' then
      let (source, after) ← backquoted? [] rest
      let (parts, after) ← word? stops fuel after
      return (.command source false :: parts, after)
    else
      let (parts, after) ← word? stops fuel rest
      return (Part.before [c] false parts, after)

/-- The text of a word that holds nothing but text without quotes. -/
def Word.plain? : Word → Option (List Char)
  | [] => some []
  | [.text s false] => some s
  | _ => none

end EngineDuel.Host.Shell

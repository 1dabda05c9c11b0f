import EngineDuel.Options.Value

/-!
# Options on a command line

A program takes named options only. An option is a switch, or has a value, which is the next argument
or stands behind an equals sign. A value that is an argument of its own must not look like an option,
unless the option allows it.

An option's value is read when the next option starts or the command line ends, a value behind an
equals sign at once. This decides which of two mistakes is reported, except that an argument which
belongs to no option is always reported before the value that waits.

An argument need not be a text. Options are found by texts, and most values must be texts.
-/

namespace EngineDuel.Options

/-- What is wrong with a command line, or what it asks for instead of a run. An option is told by its
name, and `given` are the names of the options before. -/
inductive Refusal where
  /-- An argument with two hyphens that is no option. -/
  | unknownOption (name : String) (given : List String)
  /-- Another argument that is no option and no value. -/
  | strayArgument (arg : String)
  /-- An option without its value. -/
  | missingValue (option : String)
  /-- A value that should be a text and is not. -/
  | notText
  /-- Another value that cannot be read. -/
  | malformedValue (option value : String) (fault : ValueFault)
  /-- An option that is given twice. -/
  | repeated (option : String)
  /-- A switch with a value. -/
  | needlessValue (option value : String) (given : List String)
  /-- Options that must be given and are not. -/
  | missingOptions (options given : List String)
  | help
  | version
  deriving DecidableEq, Repr

/-- What an option does to the options `α` of a program. -/
inductive Effect (α : Type) where
  /-- A switch. -/
  | switch (set : α → α)
  /-- An option with a value. -/
  | value (put : RawText → α → Except ValueFault α)
  /-- A request for something else. -/
  | instead (refusal : Refusal)

/-- An option of a program with options in `α`. -/
structure Spec (α : Type) where
  name : String
  effect : Effect α
  /-- Whether its value may look like an option. -/
  anyValue : Bool := false
  /-- Whether it may be given more than once. -/
  repeatable : Bool := false
  required : Bool := false
  /-- Another name, of one letter. -/
  letter : Option Char := none
  /-- What help says about it. -/
  about : String := ""
  /-- What is taken if it is not given, as help tells it. -/
  standard : Option String := none
  /-- What help writes for its value, if that is not the name of the option. -/
  placeholder : Option String := none

/-- A command line of which a part was read. -/
structure Progress (α : Type) where
  options : α
  /-- The names of the options that were given. -/
  given : List String := []
  /-- The option whose value is not read yet, and that value if it was given. -/
  pending : Option (Spec α × Option RawText) := none

variable {α : Type}

namespace Progress

/-- Notes that an option is given. -/
def give (p : Progress α) (spec : Spec α) : Except Refusal (Progress α) :=
  if p.given.contains spec.name && !spec.repeatable then .error (.repeated spec.name)
  else .ok { p with given := spec.name :: p.given }

/-- What is wrong with the value of an option, as what is wrong with the command line. -/
def refuseValue (spec : Spec α) (value : RawText) : ValueFault → Refusal
  | .missing => .missingValue spec.name
  | .notText => .notText
  | fault => .malformedValue spec.name value.shown fault

/-- Reads the value of an option. -/
def put (p : Progress α) (spec : Spec α) (value : RawText) : Except Refusal (Progress α) := do
  let p ← p.give spec
  match spec.effect with
  | .value put =>
    return { p with options := ← (put value p.options).mapError (refuseValue spec value) }
  | .switch set => return { p with options := set p.options }
  | .instead refusal => .error refusal

/-- Reads the value that waits. -/
def settle (p : Progress α) : Except Refusal (Progress α) :=
  match p.pending with
  | none => .ok p
  | some (spec, none) => .error (.missingValue spec.name)
  | some (spec, some value) => { p with pending := none }.put spec value

/-- The names of the options that were given, each once, in order. -/
def givenNames (p : Progress α) : List String := p.given.reverse.eraseDups

/-- The same together with the option whose value waits, if that can be read. -/
def settledNames (p : Progress α) : List String :=
  match p.settle with
  | .ok p => p.givenNames
  | .error _ => p.givenNames

/-- An option with its value, if one stands behind an equals sign. -/
def option (p : Progress α) (spec : Spec α) (attached : Option RawText) :
    Except Refusal (Progress α) :=
  match spec.effect, attached with
  | .value _, some value => do (← p.settle).put spec value
  | .value _, none => do return { ← p.settle with pending := some (spec, none) }
  | _, some value => .error (.needlessValue spec.name value.shown p.givenNames)
  | _, none => do (← p.settle).put spec default

/-- The option whose value is expected, if there is one. -/
def awaited? (p : Progress α) : Option (Spec α) :=
  match p.pending with
  | some (spec, none) => some spec
  | _ => none

end Progress

/-- Name and value of an argument with two hyphens, from the letters after them. -/
def splitLong (arg : RawText) (letters : List Char) : String × Option RawText :=
  let name := (arg.ofLetters (letters.takeWhile (· ≠ '='))).shown
  match letters.dropWhile (· ≠ '=') with
  | [] => (name, none)
  | _ :: value => (name, some (arg.ofLetters value))

/-- What is shown of an argument with one hyphen: its first character, or all of it if no character
follows the hyphen. -/
def shownShort : RawText → String
  | .text s => String.ofList (s.toList.take 2)
  | .other bytes _ =>
    match Text.firstCharacter (bytes.drop 1) with
    | (length, true) => Text.decodeLossy (bytes.take (length + 1))
    | (_, false) => Text.decodeLossy bytes

/-- One argument. -/
def step (specs : List (Spec α)) (p : Progress α) (arg : RawText) :
    Except Refusal (Progress α) :=
  let asValue : Except Refusal (Progress α) :=
    match p.awaited? with
    | some spec => .ok { p with pending := some (spec, some arg) }
    | none => .error (.strayArgument arg.shown)
  if (p.awaited?.map Spec.anyValue).getD false then asValue
  else
    match arg.letters with
    | '-' :: '-' :: rest =>
      let (name, attached) := splitLong arg rest
      match specs.find? fun s => s.name = name with
      | some spec => p.option spec attached
      | none => .error (.unknownOption name p.settledNames)
    | '-' :: letter :: _ =>
      match specs.find? fun s => s.letter = some letter with
      | some spec => p.option spec none
      | none => .error (.strayArgument (shownShort arg))
    | _ => asValue

/-- Reads arguments. After two hyphens alone no option follows, so nothing may follow. -/
def steps (specs : List (Spec α)) : Progress α → List RawText → Except Refusal (Progress α)
  | p, [] => p.settle
  | p, arg :: rest =>
    if arg = .text "--" && !(p.awaited?.map Spec.anyValue).getD false then
      match rest with
      | [] => p.settle
      | arg :: _ => .error (.strayArgument arg.shown)
    else do steps specs (← step specs p arg) rest

/-- The options on a command line. -/
def parse (specs : List (Spec α)) (start : α) (args : List RawText) : Except Refusal α := do
  let p ← steps specs { options := start } args
  match specs.filter fun s => s.required && !p.given.contains s.name with
  | [] => return p.options
  | missing => throw (.missingOptions (missing.map Spec.name) p.givenNames)

/-! ## Specifications -/

/-- An option with a text. -/
def textSpec (name : String) (put : String → α → α) : Spec α :=
  { name, effect := .value fun v o => (text v).map fun s => put s o }

/-- An option with a value of some kind that is told by a text. -/
def readSpec {β : Type} (name : String) (read : String → Except ValueFault β) (put : β → α → α) :
    Spec α :=
  { name, effect := .value fun v o => (text v >>= read).map fun x => put x o }

/-- An option with a path that need not be a text. -/
def rawPathSpec (name : String) (put : RawText → α → α) : Spec α :=
  { name, effect := .value fun v o => (rawPath v).map fun x => put x o }

/-- The option that asks for help. -/
def helpSpec : Spec α :=
  { name := "help", effect := .instead .help, letter := some 'h', about := "Print help" }

/-- The option that asks for the version. -/
def versionSpec : Spec α :=
  { name := "version", effect := .instead .version, letter := some 'V', about := "Print version" }

end EngineDuel.Options

import EngineDuel.Options.Grammar
import EngineDuel.Text.Similarity

/-!
# What a program says about its options

On request a program lists its options, one after another, with what they are for. If a command line is
refused it says what is wrong, which option may have been meant, and how the program is called.

The list has two columns. If some option's text does not fit beside a wide first column, every text
goes to a line of its own.
-/

namespace EngineDuel.Options

variable {α : Type}

namespace Spec

/-- Whether an option has a value. -/
def hasValue (s : Spec α) : Bool :=
  match s.effect with
  | .value _ => true
  | _ => false

/-- How an option is written. -/
def shown (s : Spec α) : String :=
  let value := s.placeholder.getD (s.name.map fun c => if c = '-' then '_' else c.toUpper)
  "--" ++ s.name ++ (if s.hasValue then " <" ++ value ++ ">" else "")

/-- What help says about an option. -/
def remark (s : Spec α) : String :=
  let standard := s.standard.map fun d => "[default: " ++ d ++ "]"
  " ".intercalate ([s.about].filter (· ≠ "") ++ standard.toList)

end Spec

/-- A program that takes options, as it speaks of itself. -/
structure Manual (α : Type) where
  specs : List (Spec α)
  /-- What the program is for. -/
  about : String

namespace Manual

/-- How the option of a name is written. -/
def shown (m : Manual α) (name : String) : String :=
  ((m.specs.find? fun s => s.name = name).map Spec.shown).getD ("--" ++ name)

/-! ## How the program is called -/

/-- How a program is called with some options. The options that must be given are always told; without
any other one, a mark stands for the rest. -/
def usage (m : Manual α) (program : String) (used : List String) : String :=
  let must := (m.specs.filter Spec.required).map Spec.name
  let mark := if used.isEmpty then ["[OPTIONS]"] else []
  "Usage: " ++ " ".intercalate (program :: mark ++ (must ++ used).eraseDups.map m.shown)

/-! ## Help -/

/-- The width of a line. -/
def lineWidth : Nat := 100

/-- The width of the widest option. -/
def columnWidth (m : Manual α) : Nat := (m.specs.map fun s => s.shown.length).foldl max 2

/-- Whether a text does not fit beside an option. The first column is wide if it takes more than two
fifths of a line. -/
def isTooWide (m : Manual α) (s : Spec α) : Bool :=
  let taken := m.columnWidth + 12
  taken ≤ lineWidth && lineWidth * 2 < taken * 5 && lineWidth - taken < s.remark.length

/-- The lines of an option. -/
def entry (m : Manual α) (s : Spec α) : String :=
  let letter := match s.letter with
    | some c => String.ofList ['-', c, ',', ' ']
    | none => "    "
  let gap :=
    if m.specs.any m.isTooWide then "\n          "
    else String.ofList (List.replicate (m.columnWidth + 2 - s.shown.length) ' ')
  "  " ++ letter ++ s.shown ++ gap ++ s.remark ++ "\n"

/-- The list of options. -/
def help (m : Manual α) (program : String) : String :=
  m.about ++ "\n\n" ++ m.usage program [] ++ "\n\nOptions:\n" ++ String.join (m.specs.map m.entry)

/-! ## Refusals -/

/-- What is wrong with a command line, with how the program is called where that may help. -/
def problem (m : Manual α) (program : String) : Refusal → String
  | .unknownOption name given =>
    let similar := Text.mostAlike? name (m.specs.map Spec.name)
    let tip := match similar with
      | some other => "\n\n  tip: a similar argument exists: '--" ++ other ++ "'"
      | none => ""
    "unexpected argument '--" ++ name ++ "' found" ++ tip ++ "\n\n"
      ++ m.usage program (given ++ similar.toList)
  | .strayArgument arg => "unexpected argument '" ++ arg ++ "' found\n\n" ++ m.usage program []
  | .missingValue option =>
    "a value is required for '" ++ m.shown option ++ "' but none was supplied"
  | .notText =>
    "invalid UTF-8 was detected in one or more arguments\n\n" ++ m.usage program []
  | .malformedValue option value fault =>
    "invalid value '" ++ value ++ "' for '" ++ m.shown option ++ "': " ++ fault.message
  | .repeated option =>
    "the argument '" ++ m.shown option ++ "' cannot be used multiple times\n\n" ++ m.usage program []
  | .needlessValue option value given =>
    "unexpected value '" ++ value ++ "' for '" ++ m.shown option
      ++ "' found; no more were expected\n\n" ++ m.usage program (given ++ [option])
  | .missingOptions options given =>
    "the following required arguments were not provided:\n"
      ++ "\n".intercalate (options.map fun o => "  " ++ m.shown o) ++ "\n\n"
      ++ m.usage program (given ++ options)
  | .help => ""
  | .version => ""

/-- What a program says when it refuses a command line. -/
def complaint (m : Manual α) (program : String) (r : Refusal) : String :=
  "error: " ++ m.problem program r ++ "\n\nFor more information, try '--help'.\n"

end Manual

/-- The name and the version of the programs. -/
def versionText : String := "arena 0.1.0\n"

end EngineDuel.Options

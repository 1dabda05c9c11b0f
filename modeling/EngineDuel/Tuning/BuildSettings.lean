import EngineDuel.Json.Decode
import EngineDuel.Json.Write
import EngineDuel.Number.Layout
import EngineDuel.Text.Blank

/-!
# How an engine is built

A command builds an engine for a value of a parameter, and the file that it makes is copied to a
place of its own. In the command and in the name of that place, `{param}` stands for the parameter
and `{value}` for the value.
-/

namespace EngineDuel.Tuning

/-- How an engine is built. -/
structure BuildSettings where
  command : String
  /-- The file that the command makes. -/
  artifact : String
  /-- Where the file is copied to. -/
  output : String
  /-- Where the command runs. -/
  workdir : Option String := none
  deriving DecidableEq, Repr, Inhabited

/-- Where files are copied to if nothing else is said. -/
def defaultOutput : String := "target/tune/engine-\x7bparam\x7d-\x7bvalue\x7d"

/-- A text in which each `mark`, from the left, is replaced by `new`; a mark has at least one
character. The first `skip` characters belong to a mark that was replaced already. -/
def replaceFrom (mark new : List Char) : Nat → List Char → List Char
  | _, [] => []
  | skip + 1, _ :: rest => replaceFrom mark new skip rest
  | 0, c :: rest =>
    if mark.isPrefixOf (c :: rest) then new ++ replaceFrom mark new (mark.length - 1) rest
    else c :: replaceFrom mark new 0 rest

/-- A text in which each mark is replaced. -/
def replace (mark new s : List Char) : List Char := replaceFrom mark new 0 s

/-- The mark of the parameter. -/
def paramMark : List Char := "\x7bparam\x7d".toList

/-- The mark of the value. -/
def valueMark : List Char := "\x7bvalue\x7d".toList

/-- A template for a parameter and a value. -/
def expand (template param : String) (value : Float) : String :=
  String.ofList <|
    replace valueMark (Number.plain value).toList (replace paramMark param.toList template.toList)

namespace BuildSettings

/-- Where the engine of a value is copied to. -/
def outputPath (b : BuildSettings) (param : String) (value : Float) : String :=
  expand b.output param value

/-- Build settings in JSON. -/
def json (b : BuildSettings) : Json :=
  .record [
    ("command", .text b.command),
    ("artifact", .text b.artifact),
    ("output", .text b.output),
    ("workdir", .optional .text b.workdir)]

/-- Reads build settings. -/
def decoder : Json.Decoder BuildSettings := fun j => do
  match ← Json.Decoder.members ["command", "artifact", "output", "workdir"] j with
  | [command, artifact, output, workdir] =>
    return {
      command := ← Json.Decoder.required .text command
      artifact := ← Json.Decoder.required .text artifact
      output := ← Json.Decoder.withDefault defaultOutput .text output
      workdir := ← Json.Decoder.withDefault none (.optional .text) workdir }
  | _ => none

end BuildSettings

end EngineDuel.Tuning

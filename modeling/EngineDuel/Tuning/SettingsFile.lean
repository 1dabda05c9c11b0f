import EngineDuel.Failure
import EngineDuel.Options.Tuner
import EngineDuel.Toml.Read
import EngineDuel.Tuning.BuildSettings

/-!
# The settings of a search

A settings file has a table `search`, in which nothing unknown may stand, and a table `build`, in
which more may stand. The command line wins over the file. A table may also be written as the array
of its values in order.
-/

namespace EngineDuel.Tuning

/-- What a file says about the search itself. -/
structure SearchSection where
  targetParam : Option String := none
  engineParams : Option String := none
  start : Option Float := none
  step : Option Float := none
  stop : Option Float := none
  numGames : Option UInt32 := none
  arenaPath : Option String := none
  deriving Repr, Inhabited

/-- A settings file. -/
structure SettingsFile where
  search : SearchSection := {}
  build : Option BuildSettings := none
  deriving Repr, Inhabited

/-! ## Reading -/

/-- A text. -/
def text? : Toml → Option String
  | .text s => some s
  | _ => none

/-- A double; whole numbers count. -/
def float? : Toml → Option Float
  | .float x => some x
  | .integer n => some (Float.ofInt n)
  | _ => none

/-- A number of 32 bits. -/
def word32? : Toml → Option UInt32
  | .integer n => if 0 ≤ n && n < UInt32.size then some (UInt32.ofNat n.toNat) else none
  | _ => none

/-- A member that may be missing. -/
def optional? {α : Type} (read : Toml → Option α) (members : Toml.Members) (name : String) :
    Option (Option α) :=
  match members.lookup name with
  | none => some none
  | some v => (read v).map some

/-- The names in the table `search`. -/
def searchNames : List String :=
  ["target_param", "engine_params", "start", "step", "end", "num_games", "arena_path"]

/-- The names in the table `build`. -/
def buildNames : List String := ["command", "artifact", "output", "workdir"]

/-- The members of a table; the items of an array are named in order. -/
def membersOf? (names : List String) : Toml → Option Toml.Members
  | .table _ members => some members
  | .array items => some (names.zip items)
  | _ => none

/-- The table `search`. An array must give every member. -/
def SearchSection.read? (t : Toml) : Option SearchSection := do
  let members ← membersOf? searchNames t
  let complete := match t with
    | .array items => searchNames.length ≤ items.length
    | _ => true
  if complete && members.all fun m => searchNames.contains m.1 then
    return {
      targetParam := ← optional? text? members "target_param"
      engineParams := ← optional? text? members "engine_params"
      start := ← optional? float? members "start"
      step := ← optional? float? members "step"
      stop := ← optional? float? members "end"
      numGames := ← optional? word32? members "num_games"
      arenaPath := ← optional? text? members "arena_path" }
  else none

/-- The table `build`. -/
def BuildSettings.read? (t : Toml) : Option BuildSettings := do
  let members ← membersOf? buildNames t
  return {
    command := ← (members.lookup "command").bind text?
    artifact := ← (members.lookup "artifact").bind text?
    output := (← optional? text? members "output").getD defaultOutput
    workdir := ← optional? text? members "workdir" }

/-- The settings of a text. -/
def SettingsFile.read? (s : String) : Option SettingsFile := do
  let members ← Toml.read? s.toList
  if members.all fun m => m.1 = "search" || m.1 = "build" then
    return {
      search := (← optional? SearchSection.read? members "search").getD {}
      build := ← optional? BuildSettings.read? members "build" }
  else none

/-! ## Together with the command line -/

/-- What is said when nothing tells how to build an engine. -/
def buildMissing : String :=
  "--build-command and --build-artifact (or a [build] table) are required"

/-- How engines are built: the table `build` of the file, or else the defaults, with what the
command line says about it. -/
def buildSettings (o : TunerOptions) (file : Option BuildSettings) :
    Except Failure BuildSettings := do
  let base ← match file, o.buildCommand, o.buildArtifact with
    | some b, _, _ => pure b
    | none, some command, some artifact =>
      pure { command, artifact, output := defaultOutput : BuildSettings }
    | none, _, _ => throw (.because buildMissing)
  return {
    command := o.buildCommand.getD base.command
    artifact := o.buildArtifact.getD base.artifact
    output := o.buildOutput.getD base.output
    workdir := o.buildWorkdir.or base.workdir }

end EngineDuel.Tuning

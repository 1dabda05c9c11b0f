import EngineDuel.Host.Race
import EngineDuel.Host.Work
import EngineDuel.Options.Tuner
import EngineDuel.Tuning.SettingsFile

/-!
# The program that searches

It puts together the options and the settings file, climbs, and prints the best value and the rating
of each. What builds and matches print comes before that.
-/

namespace EngineDuel.Host

/-- The settings in a file. -/
def loadSettings (w : Workspace) (cwd : Place) (path : String) :
    Except Failure Tuning.SettingsFile := do
  let text ← failing ("failed to read config: " ++ path) (w.readText cwd path)
  match Tuning.SettingsFile.read? text with
  | some f => return f
  | none => throw (.because ("failed to parse config: " ++ path))

namespace Tuner

/-- Something that must be given. -/
def required {α : Type} (option : String) (x : Option α) : Except Failure α :=
  match x with
  | some a => .ok a
  | none => .error (.because (option ++ " is required"))

/-- What a search does. -/
structure Plan where
  param : String
  range : Tuning.Range
  race : Tuning.RaceSettings
  build : Tuning.BuildSettings

/-- The plan that options and settings make. `sibling` is the program that plays matches if nothing
else is said. -/
def plan (o : TunerOptions) (file : Tuning.SettingsFile) (sibling : String) :
    Except Failure Plan := do
  let s := file.search
  let param ← required "--target-param" (o.targetParam.or s.targetParam)
  let start ← required "--start" (o.start.or s.start)
  let step ← required "--step" (o.step.or s.step)
  let stop ← required "--end" (o.stop.or s.stop)
  let range : Tuning.Range := ⟨start, step, stop⟩
  match range.validate with
  | .error e => throw (.because e.message)
  | .ok () => pure ()
  let race : Tuning.RaceSettings := {
    arenaPath := (o.arenaPath.or s.arenaPath).getD sibling
    engineParams := (o.engineParams.or s.engineParams).getD ""
    numGames := (o.numGames.or s.numGames).getD 100
    clock := o.clock
    kFactor := o.kFactor
    extraArgs := o.arenaArgs }
  return { param, range, race, build := ← Tuning.buildSettings o file.build }

/-- The line of a value. -/
def ratingLine (param : String) (optimal value rating : Float) : String :=
  "  " ++ param ++ "=" ++ Number.plain value ++ ": elo=" ++ Number.plain rating
    ++ (if value == optimal then " *" else "") ++ "\n"

/-- What is printed at the end. -/
def report (param : String) (f : Tuning.Finding) : String :=
  "Search Finished: param=" ++ param ++ ", optimal=" ++ Number.plain f.optimal ++ "\n"
    ++ String.join (f.table.map fun (key, rating) =>
      ratingLine param f.optimal (Float.ofBits key) rating)

/-- Searches. The given lines are the input of the build commands. -/
def work (launch : Launcher) (cwd : Place) (sibling : String) (o : TunerOptions)
    (input : List (List UInt8)) : Work Unit := do
  let files ← liftM Task.files
  let planned := do
    let file ← match o.config with
      | some path => loadSettings files cwd path
      | none => pure {}
    plan o file sibling
  match planned with
  | .error e => throw e
  | .ok p =>
    let climbed := Tuning.climb (workshop launch cwd p.build p.param p.race) p.range
      { files, input }
    liftM (Task.putFiles climbed.state.files)
    liftM (Task.write .out climbed.state.out)
    liftM (Task.write .err climbed.state.err)
    match climbed.result with
    | .error e => throw e
    | .ok f => liftM (Task.say .out (report p.param f))

/-- Reads the whole input, at most so many lines, the lines before it last first. -/
def readAll : Nat → List (List UInt8) → Task (List (List UInt8))
  | 0, back => .done back.reverse
  | fuel + 1, back => do
    let line ← Task.readLine
    if line = [] then return back.reverse else readAll fuel (line :: back)

/-- The program that searches, called by a name. -/
def program (launch : Launcher) (cwd : Place) (sibling name : String) (args : List RawText) :
    Program :=
  match TunerOptions.parse args with
  | .error refusal => refused TunerOptions.manual name refusal
  | .ok o => do
    let input ← readAll UInt64.size []
    Work.program (work launch cwd sibling o input)

end Tuner

end EngineDuel.Host

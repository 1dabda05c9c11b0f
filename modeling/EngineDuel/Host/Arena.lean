import EngineDuel.Host.Records
import EngineDuel.Host.RunningEngine
import EngineDuel.Host.Work
import EngineDuel.Options.Arena
import EngineDuel.Report.FinalLine
import EngineDuel.Report.GameLines

/-!
# The program that plays tournaments

It prints what engines say while they think, the lines of each game and the final line, each with the
time before it, and it keeps a file of the games if it is asked to.
-/

namespace EngineDuel.Host

namespace Arena

/-- What a tournament works on: the files and the lines that were printed, last first. -/
structure Desk where
  files : Workspace
  printed : List String := []

/-- A line of output. -/
def stamped (now : Moment) (text : String) : String := now.stamp ++ " " ++ text ++ "\n"

/-- The lines that an event prints. -/
def echo (now : Moment) (tag : String) : Game.Event → List String
  | .diagnostic player line => [stamped now (tag ++ " " ++ player.name ++ ": " ++ line)]
  | _ => []

/-- Where and when a tournament is played. -/
structure Venue where
  launch : Launcher
  now : Moment
  cwd : Place

/-- The games of a tournament between programs, printed and kept. -/
def hooks (v : Venue) (o : ArenaOptions) (engines : ByPlayer EngineConfig) : Hooks Desk where
  play d game seating :=
    match Report.gameTag game o.numGames with
    | .error e => { result := .error (.overflow e), state := d }
    | .ok tag =>
      let played := playGame v.launch d.files v.cwd engines seating o.config
      let lines := played.events.flatMap (echo v.now tag)
      { result := played.result
        state := { files := played.files, printed := lines.reverse ++ d.printed }
        log := played.log }
  onGame d summary :=
    let told := do
      let lines ← Report.gameLines summary
      return (lines.map (stamped v.now), ← Report.gameLine summary)
    match told with
    | .error e => { result := .error (.because e.message), state := d }
    | .ok (lines, record) =>
      let d := { d with printed := lines.reverse ++ d.printed }
      match o.out with
      | none => { result := .ok (), state := d }
      | some path =>
        match addRecord d.files v.cwd path record with
        | .ok files => { result := .ok (), state := { d with files } }
        | .error e => { result := .error e, state := d }

/-- The program of an engine, as the options tell. -/
def engineOf (option : String) (path : RawText) (params : String) : Except Failure EngineConfig :=
  match EngineConfig.ofParams path params with
  | .ok c => .ok c
  | .error e => .error (Failure.within ⟨e.causes⟩ ("invalid " ++ option))

/-- Plays a tournament. The value tells whether a counter outgrew its bits. -/
def work (v : Venue) (o : ArenaOptions) : Work Bool := do
  if o.numGames = 0 then throw (.because "--num-games must be >= 1")
  let a ← liftExcept (engineOf "--a-params" o.aPath o.aParams)
  let b ← liftExcept (engineOf "--b-params" o.bPath o.bParams)
  let engines : ByPlayer EngineConfig := ⟨a, b⟩
  match o.out with
  | none => pure ()
  | some path =>
    Work.change fun w => createRecords w v.cwd path
    let heading : Report.Heading := ⟨o.numGames, engines, o.config, o.ratings⟩
    let written := addHeading (← liftM Task.files) v.cwd path heading v.now
    liftM (Task.putFiles written.state)
    liftExcept written.result
  let t : Tournament := { numGames := o.numGames, ratings := o.ratings }
  let run := t.run (hooks v o engines) { files := ← liftM Task.files }
  liftM (Task.putFiles run.state.files)
  liftM (Task.say .out (String.join run.state.printed.reverse))
  match run.result with
  | .ok () =>
    liftM (Task.say .out
      (stamped v.now (Report.finalLine run.tournament.standings run.tournament.ratings)))
    return false
  | .error e =>
    match e.asFailure with
    | .ok f => throw f
    | .error _ => return true
where
  liftExcept {α : Type} : Except Failure α → Work α
    | .ok a => pure a
    | .error e => throw e

/-- The program that plays tournaments, called by a name. -/
def program (v : Venue) (name : String) (args : List RawText) : Program :=
  match ArenaOptions.parse args with
  | .error refusal => refused ArenaOptions.manual name refusal
  | .ok o => do
    match ← (work v o).run with
    | .ok false => return .code 0
    | .ok true => return overflowEnding
    | .error f => Work.program (throw f)

end Arena

end EngineDuel.Host

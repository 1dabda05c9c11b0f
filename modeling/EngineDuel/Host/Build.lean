import EngineDuel.Host.Records
import EngineDuel.Host.Task
import EngineDuel.Text.ShellWords
import EngineDuel.Tuning.BuildSettings

/-!
# Building engines

The build command is split as a shell would do it and started as a program, which learns the
parameter and its value also from two variables. When it has ended well the file that it makes is
copied to the place of its value.
-/

namespace EngineDuel.Host

/-- Where engines are built and play: the files, what was printed, and the input that is left. -/
structure Site where
  files : Workspace
  out : List UInt8 := []
  err : List UInt8 := []
  input : List (List UInt8) := []

namespace Site

/-- The site after a program has run. -/
def after (s : Site) (f : Finished) : Site :=
  { files := f.files, out := s.out ++ f.out, err := s.err ++ f.err, input := f.unread }

/-- The directory in which a command works. -/
def workPlace (w : Workspace) (cwd : Place) : Option String → Except Fault Place
  | none => .ok cwd
  | some dir => do
    if dir.contains '\x00' then throw .nulInArgument
    let t ← w.resolve cwd dir
    match t.entry with
    | some .directory => return t.place
    | some (.file _) => throw .notDirectory
    | none => throw .missing

end Site

/-- The log line before a build. -/
def buildNote (param : String) (value : Float) (command : String) : LogLine :=
  ⟨.info, "building " ++ param ++ "=" ++ Number.plain value ++ ": " ++ command⟩

/-- A command in a message. -/
def namedCommand (command : String) : String := "\x60" ++ command ++ "\x60"

/-- Copies what a build has made to the place of its value. Directories that were made for it remain
if it cannot be copied. -/
def keepArtifact (b : Tuning.BuildSettings) (w : Workspace) (cwd : Place) (dest : String) :
    Step Workspace Failure Unit :=
  match makeAbove w cwd dest with
  | .error e => { result := .error e, state := w }
  | .ok above =>
    match above.copy cwd b.artifact dest with
    | .error f =>
      { result := .error (faultWithin f ("failed to copy " ++ b.artifact ++ " to " ++ dest))
        state := above }
    | .ok copied => { result := .ok (), state := copied }

/-- Builds the engine of a value; the result is the name of its file. -/
def build (launch : Launcher) (cwd : Place) (b : Tuning.BuildSettings) (param : String) (s : Site)
    (value : Float) : Step Site Failure String :=
  let command := Tuning.expand b.command param value
  match Text.shellWords? command with
  | none =>
    { result := .error (.because ("unbalanced quotes in build command " ++ namedCommand command))
      state := s }
  | some [] => { result := .error (.because "build command is empty"), state := s }
  | some (program :: args) =>
    let log := [buildNote param value command]
    let environment : List (RawText × RawText) :=
      [("TUNE_PARAM", param), ("TUNE_VALUE", Number.plain value)]
    let started := do
      let place ← Site.workPlace s.files cwd b.workdir
      launch { path := program, args := args.map .text, environment, cwd := place } s.files
    match started with
    | .error f =>
      { result := .error (faultWithin f ("failed to run " ++ namedCommand command)), state := s, log }
    | .ok running =>
      let f := running.finish s.files s.input
      let s := s.after f
      if f.ending.isSuccess then
        let dest := b.outputPath param value
        let kept := keepArtifact b s.files cwd dest
        { result := kept.result.map fun _ => dest, state := { s with files := kept.state }, log }
      else
        let text := namedCommand command ++ " exited with " ++ f.ending.message
        { result := .error (.because text), state := s, log }

end EngineDuel.Host

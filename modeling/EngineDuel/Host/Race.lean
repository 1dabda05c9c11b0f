import EngineDuel.Host.Build
import EngineDuel.Tuning.RaceOutput
import EngineDuel.Tuning.RaceSettings

/-!
# Matches of a search

A match is played by another program. Its output is passed on line by line, and its final line tells
the ratings.
-/

namespace EngineDuel.Host

/-- The log line before a match. -/
def raceNote (r : Tuning.RaceSettings) (args : List String) : LogLine :=
  ⟨.debug, r.arenaPath ++ " " ++ " ".intercalate args⟩

/-- Lets two engines play. The program has no input. -/
def race (launch : Launcher) (cwd : Place) (r : Tuning.RaceSettings) (s : Site)
    (baseline target : Tuning.Contestant) : Step Site Failure Tuning.RaceOutcome :=
  let args := r.arguments baseline target
  let log := [raceNote r args]
  match launch { path := r.arenaPath, args := args.map .text, cwd } s.files with
  | .error f =>
    { result := .error (faultWithin f ("failed to spawn " ++ r.arenaPath)), state := s, log }
  | .ok running =>
    let f := running.finish s.files []
    let output := Tuning.RaceOutput.ofBytes f.out
    let passed := Text.encode (String.join (output.lines.map (· ++ "\n")))
    let fault := if f.ending.isSuccess then none else some f.ending.message
    { result := output.outcome fault
      state := { s with files := f.files, out := s.out ++ passed, err := s.err ++ f.err }
      log }

/-- A workshop that runs programs. -/
def workshop (launch : Launcher) (cwd : Place) (b : Tuning.BuildSettings) (param : String)
    (r : Tuning.RaceSettings) : Tuning.Workshop Site where
  build := build launch cwd b param
  race := race launch cwd r

end EngineDuel.Host

import EngineDuel.Log
import EngineDuel.Tuning.Range
import EngineDuel.Tuning.Table

/-!
# Climbing a hill

A search builds an engine for each value of its range, in order, and lets it play against the best
one so far. If the new one ends with the higher rating it is the best from then on. Each takes its
last rating into the next match; a new one starts with the rating of the best.
-/

namespace EngineDuel.Tuning

/-- An engine that plays for a value. -/
structure Contestant where
  value : Float
  path : String
  rating : Float
  deriving Repr, Inhabited

/-- The ratings of both engines after a match. -/
structure RaceOutcome where
  baselineElo : Float
  targetElo : Float
  deriving Repr

/-- Who builds engines and lets them play, with states in `σ`. -/
structure Workshop (σ : Type) where
  build : σ → Float → Step σ Failure String
  race : σ → Contestant → Contestant → Step σ Failure RaceOutcome

/-- The rating of an engine that has not played. -/
def defaultRating : Float := 1000.0

/-- What a search found. -/
structure Finding where
  optimal : Float
  table : Table

/-- The log line before a match. -/
def raceNote (number total : Nat) (best target : Contestant) : LogLine :=
  ⟨.info, "[" ++ toString number ++ "/" ++ toString total ++ "] "
    ++ Number.plain best.value ++ " (" ++ Number.plain best.rating ++ ") vs "
    ++ Number.plain target.value ++ " (" ++ Number.plain target.rating ++ ")"⟩

/-- The log line of a new best value. -/
def newBestNote (value : Float) (outcome : RaceOutcome) : LogLine :=
  ⟨.info, "new optimal value " ++ Number.plain value ++ " (" ++ Number.plain outcome.targetElo
    ++ " > " ++ Number.plain outcome.baselineElo ++ ")"⟩

/-- What is said when no engine can be built for the first value. -/
def baselineContext (value : Float) : String :=
  "failed to build baseline for value " ++ Number.plain value

/-- What is said when no engine can be built for another value. -/
def candidateContext (value : Float) : String :=
  "failed to build candidate for value " ++ Number.plain value

/-- What is said when a match fails. -/
def raceContext (best target : Float) : String :=
  "arena failed for " ++ Number.plain best ++ " vs " ++ Number.plain target

variable {σ : Type}

/-- A step with log lines before everything else. -/
def withLog {ε α : Type} (log : List LogLine) (s : Step σ ε α) : Step σ ε α :=
  { s with log := log ++ s.log }

/-- The search from the candidate with a number on, with the best engine so far. -/
def climbFrom (w : Workshop σ) (total : Nat) :
    Nat → List Float → Contestant → Table → σ → Step σ Failure Finding
  | _, [], best, table, s => { result := .ok ⟨best.value, table⟩, state := s }
  | number, value :: rest, best, table, s =>
    let built := w.build s value
    withLog built.log <|
      match built.result with
      | .error e => { result := .error (e.within (candidateContext value)), state := built.state }
      | .ok path =>
        let best := { best with rating := (table.get? best.value.toBits).getD defaultRating }
        let target : Contestant :=
          { value, path, rating := (table.get? value.toBits).getD best.rating }
        let raced := w.race built.state best target
        withLog (raceNote number total best target :: raced.log) <|
          match raced.result with
          | .error e =>
            { result := .error (e.within (raceContext best.value value)), state := raced.state }
          | .ok outcome =>
            let table := Table.set best.value.toBits outcome.baselineElo table
            let table := Table.set value.toBits outcome.targetElo table
            if outcome.targetElo > outcome.baselineElo then
              withLog [newBestNote value outcome] <|
                climbFrom w total (number + 1) rest { target with rating := outcome.targetElo }
                  table raced.state
            else
              climbFrom w total (number + 1) rest { best with rating := outcome.baselineElo }
                table raced.state

/-- Searches a range. -/
def climb (w : Workshop σ) (range : Range) (s : σ) : Step σ Failure Finding :=
  match range.validate with
  | .error e => { result := .error (.because e.message), state := s }
  | .ok () =>
    let built := w.build s range.start
    withLog built.log <|
      match built.result with
      | .error e =>
        { result := .error (e.within (baselineContext range.start)), state := built.state }
      | .ok path =>
        let candidates := range.candidates
        climbFrom w candidates.length 1 candidates ⟨range.start, path, defaultRating⟩
          (Table.seeded range.start.toBits defaultRating) built.state

end EngineDuel.Tuning

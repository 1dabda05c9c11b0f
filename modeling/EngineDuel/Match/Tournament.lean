import EngineDuel.Failure
import EngineDuel.Game.Error
import EngineDuel.Log
import EngineDuel.Match.Rating
import EngineDuel.Match.Standings
import EngineDuel.Number.Layout

/-!
# Tournaments

A tournament is a number of games between the same two players, who change colours after each game. A
game counts as soon as it is over; standings and ratings are known before anyone is told of it. When
a game fails, or who is told of it does, the tournament stops, and another run goes on from there.
-/

namespace EngineDuel

/-- A counted game, as the world is told of it. -/
structure Summary where
  /-- The number of the game, from zero. -/
  game : UInt32
  /-- How many games the tournament has. -/
  total : UInt32
  record : GameRecord
  update : RatingUpdate
  ratings : Ratings
  standings : Standings

/-- A tournament so far. -/
structure Tournament where
  numGames : UInt32
  ratings : Ratings := {}
  standings : Standings := {}

/-- Who plays the games of a tournament and who is told of them, with states in `σ`. -/
structure Hooks (σ : Type) where
  play : σ → UInt32 → Seating → Step σ GameError GameRecord
  onGame : σ → Summary → Step σ Failure Unit

/-- Why a run of a tournament stopped. -/
inductive TournamentError where
  /-- A game failed. -/
  | game (number total : UInt32) (cause : GameError)
  /-- Who was told of a game failed. -/
  | observer (cause : Failure)
  /-- A counter outgrew its bits. -/
  | overflow (cause : Overflow)

/-- A failed run as a failure with causes; an outgrown counter is none, it stops the program. -/
def TournamentError.asFailure : TournamentError → Except Overflow Failure
  | game number total cause => do
    let shown ← next number
    return Failure.within ⟨cause.causes⟩ <|
      "game " ++ toString shown.toNat ++ "/" ++ toString total.toNat ++ " failed"
  | observer cause => .ok cause
  | overflow cause => .error cause

namespace Tournament

/-- Who sits where in a game: A has black in the first game, and every second one. -/
def seating (game : UInt32) : Seating := ⟨if game.toNat % 2 = 0 then .black else .white⟩

/-- The tournament after one more game. -/
def count (t : Tournament) (r : GameRecord) : Except Overflow (RatingUpdate × Tournament) := do
  let score := r.score .a
  let standings ← t.standings.record r
  return (t.ratings.change score, { t with ratings := t.ratings.after score, standings })

/-- The log line of a failed game. -/
def abortNote (t : Tournament) : LogLine :=
  let s := t.standings
  ⟨.warn, "aborting after " ++ toString s.games.toNat ++ " games: abd=" ++ toString s.aWins.toNat
    ++ "-" ++ toString s.bWins.toNat ++ "-" ++ toString s.draws.toNat
    ++ ", a=" ++ Number.plain t.ratings.a ++ ", b=" ++ Number.plain t.ratings.b⟩

/-- The log line at the end. -/
def endNote (t : Tournament) : LogLine :=
  ⟨.info, "tournament finished: " ++ toString t.standings.games.toNat ++ " games"⟩

/-- What a run of a tournament brought. -/
structure Run (σ : Type) where
  result : Except TournamentError Unit
  tournament : Tournament
  state : σ
  log : List LogLine := []

variable {σ : Type}

/-- A run with log lines before everything else. -/
def Run.withLog (log : List LogLine) (r : Run σ) : Run σ := { r with log := log ++ r.log }

/-- Plays the next `left` games, of which the first has the number `game`. -/
def playFrom (hooks : Hooks σ) : Nat → UInt32 → Tournament → σ → Run σ
  | 0, _, t, s => { result := .ok (), tournament := t, state := s, log := [t.endNote] }
  | left + 1, game, t, s =>
    let played := hooks.play s game (seating game)
    Run.withLog played.log <|
      match played.result with
      | .error (.overflow o) =>
        { result := .error (.overflow o), tournament := t, state := played.state }
      | .error e =>
        { result := .error (.game game t.numGames e), tournament := t, state := played.state,
          log := [t.abortNote] }
      | .ok record =>
        match t.count record with
        | .error o => { result := .error (.overflow o), tournament := t, state := played.state }
        | .ok (update, t) =>
          let told := hooks.onGame played.state
            ⟨game, t.numGames, record, update, t.ratings, t.standings⟩
          Run.withLog told.log <|
            match told.result with
            | .error e =>
              { result := .error (.observer e), tournament := t, state := told.state }
            | .ok () => playFrom hooks left (game + 1) t told.state

/-- Plays the games that are left. -/
def run (hooks : Hooks σ) (t : Tournament) (s : σ) : Run σ :=
  playFrom hooks (t.numGames.toNat - t.standings.games.toNat) t.standings.games t s

end Tournament

end EngineDuel

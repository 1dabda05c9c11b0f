import EngineDuel.Calendar
import EngineDuel.Json.Forms
import EngineDuel.Match.Tournament

/-!
# The file of games

A file with one JSON object on each line: first what the tournament is, then each game.
-/

namespace EngineDuel.Report

/-- What is known before the first game. -/
structure Heading where
  numGames : UInt32
  engines : ByPlayer EngineConfig
  config : GameConfig
  ratings : Ratings

/-- The first object of a file. -/
def Heading.json (h : Heading) (now : Moment) : Json.Draft :=
  Json.draft [
    ("type", .ok (.text "meta")),
    ("timestamp", .ok (.text now.timestamp)),
    ("num_games", .ok (.nat h.numGames.toNat)),
    ("engines", Json.draft [("a", h.engines.a.json), ("b", h.engines.b.json)]),
    ("game", .ok h.config.json),
    ("ratings", .ok h.ratings.json)]

/-- The object of a game; games are counted from one. -/
def gameJson (s : Summary) : Except Overflow Json := do
  let number ← next s.game
  let r := s.record
  return .record [
    ("type", .text "result"),
    ("game_id", .nat number.toNat),
    ("a_color", r.seating.aColor.json),
    ("winner", .optional Color.json r.winner),
    ("winner_player", .optional Player.json r.winningPlayer),
    ("reason", r.termination.json),
    ("turns", .nat r.turns.toNat),
    ("history", .text r.history),
    ("board", .text r.board),
    ("a_remaining_ms", .nat r.remaining.a.toNat),
    ("b_remaining_ms", .nat r.remaining.b.toNat),
    ("a_elo", .float s.ratings.a),
    ("b_elo", .float s.ratings.b)]

/-- An object on a line of its own. -/
def jsonLine (j : Json) : String := j.render ++ "\n"

/-- The first line of a file. -/
def headingLine (h : Heading) (now : Moment) : Except Json.Unfinished String :=
  (h.json now).map jsonLine

/-- The line of a game. -/
def gameLine (s : Summary) : Except Overflow String := (gameJson s).map jsonLine

/-- The text of a file with a first line, if there is one, and the lines of some games. -/
def fileText (heading : Option String) (games : List Summary) : Except Overflow String := do
  let lines ← games.mapM gameLine
  return heading.getD "" ++ String.join lines

end EngineDuel.Report

import EngineDuel.Game.Config
import EngineDuel.Game.EngineConfig
import EngineDuel.Game.Record
import EngineDuel.Json.Decode
import EngineDuel.Json.Write
import EngineDuel.Match.Rating

/-!
# The JSON forms of a match

How colours, records, settings and ratings are written as JSON, and how some of them are read.
-/

namespace EngineDuel

/-- A colour is its name. -/
def Color.json (c : Color) : Json := .text c.name

/-- The names of the colours. -/
def Color.names : List (String × Color) := [("black", .black), ("white", .white)]

/-- Reads a colour. -/
def Color.decoder : Json.Decoder Color := .oneOf Color.names

/-- The capital of a player. -/
def Player.capital : Player → String
  | .a => "A"
  | .b => "B"

/-- A player is a capital. -/
def Player.json (p : Player) : Json := .text p.capital

/-- Reads a player. -/
def Player.decoder : Json.Decoder Player := .oneOf [("A", .a), ("B", .b)]

/-- A seating tells the colour of A. -/
def Seating.json (s : Seating) : Json := .record [("a_color", s.aColor.json)]

/-- Reads a seating. -/
def Seating.decoder : Json.Decoder Seating := fun j => do
  match ← Json.Decoder.members ["a_color"] j with
  | [aColor] => return ⟨← Json.Decoder.required Color.decoder aColor⟩
  | _ => none

/-- A reason is its name. -/
def Termination.json (t : Termination) : Json := .text t.name

/-- Reads a reason. -/
def Termination.decoder : Json.Decoder Termination :=
  .oneOf ([Termination.noLegalMove, .declared, .turnLimit, .timeout].map fun t => (t.name, t))

/-- Clock settings by name. -/
def ClockSettings.json (s : ClockSettings) : Json :=
  .record [
    ("total_ms", .nat s.totalMs.toNat),
    ("increment_ms", .nat s.incrementMs.toNat),
    ("turn_ms", .nat s.turnMs.toNat)]

/-- Reads clock settings. -/
def ClockSettings.decoder : Json.Decoder ClockSettings := fun j => do
  match ← Json.Decoder.members ["total_ms", "increment_ms", "turn_ms"] j with
  | [total, increment, turn] =>
    return {
      totalMs := ← Json.Decoder.required .word total
      incrementMs := ← Json.Decoder.required .word increment
      turnMs := ← Json.Decoder.required .word turn }
  | _ => none

/-- A record with all that is known. -/
def GameRecord.json (r : GameRecord) : Json :=
  .record [
    ("seating", r.seating.json),
    ("winner", .optional Color.json r.winner),
    ("termination", r.termination.json),
    ("turns", .nat r.turns.toNat),
    ("history", .text r.history),
    ("board", .text r.board),
    ("remaining_ms", .array [.nat r.remaining.a.toNat, .nat r.remaining.b.toNat])]

/-- Both changes of a game. -/
def RatingUpdate.json (u : RatingUpdate) : Json :=
  .record [("delta_a", .float u.deltaA), ("delta_b", .float u.deltaB)]

/-- Both ratings and how fast they change. -/
def Ratings.json (r : Ratings) : Json :=
  .record [("a", .float r.a), ("b", .float r.b), ("k_factor", .float r.k)]

/-- A path is its text, if it is one. -/
def RawText.json (path : RawText) : Json.Draft :=
  match path.text? with
  | some s => .ok (.text s)
  | none => .error ⟨[], "path contains invalid UTF-8 characters"⟩

/-- The path and the arguments of an engine. -/
def EngineConfig.json (e : EngineConfig) : Json.Draft :=
  Json.draft [("path", e.path.json), ("args", .ok (.texts e.args))]

/-- The rules of a game. -/
def GameConfig.json (c : GameConfig) : Json :=
  .record [
    ("a_clock", c.clocks.a.json),
    ("b_clock", c.clocks.b.json),
    ("max_turns", .optional (fun n : UInt32 => .nat n.toNat) c.maxTurns),
    ("timeout_margin_ms", .optional (fun n : UInt64 => .nat n.toNat) c.marginMs),
    ("response_timeout_ms", .nat c.responseMs.toNat),
    ("echo_prefixes", .texts c.echoPrefixes)]

end EngineDuel

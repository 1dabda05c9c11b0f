import EngineDuel.Match.Tournament

/-!
# The lines of a game

Four texts tell a game on standard output: the board, the moves, the result with the standings, and
the ratings.
-/

namespace EngineDuel.Report

/-- The number of a game, counted from one, among all. -/
def gameTag (game total : UInt32) : Except Overflow String := do
  let shown ← next game
  return "[" ++ toString shown.toNat ++ "/" ++ toString total.toNat ++ "]"

/-- The name of a winner. -/
def winnerName : Option Color → String
  | some c => c.name
  | none => "draw"

/-- A change of a rating, with its sign. -/
def change (x : Float) : String := Number.Layout.withSign.text x

/-- The result of a game. -/
def resultLine (s : Summary) : String :=
  let r := s.record
  let st := s.standings
  "Game Finished: a=" ++ (r.seating.colorOf .a).name ++ ", b=" ++ (r.seating.colorOf .b).name
    ++ ", win=" ++ winnerName r.winner ++ ", reason=" ++ r.termination.name
    ++ ", turns=" ++ toString r.turns.toNat
    ++ ", abd=" ++ toString st.aWins.toNat ++ "-" ++ toString st.bWins.toNat ++ "-"
    ++ toString st.draws.toNat
    ++ ", bw=" ++ toString st.blackWins.toNat ++ "-" ++ toString st.whiteWins.toNat

/-- The ratings after a game. -/
def ratingLine (s : Summary) : String :=
  "ELO Updated: a" ++ change s.update.deltaA ++ ", b" ++ change s.update.deltaB
    ++ ", a=" ++ Number.plain s.ratings.a ++ ", b=" ++ Number.plain s.ratings.b

/-- The texts of a game. -/
def gameLines (s : Summary) : Except Overflow (List String) := do
  let tag ← gameTag s.game s.total
  return [
    "Game State:\n" ++ s.record.board,
    "Game History: " ++ s.record.history,
    resultLine s,
    ratingLine s].map fun text => tag ++ " " ++ text

end EngineDuel.Report

import EngineDuel.Counter
import EngineDuel.Game.Record

/-!
# Standings

How many games of a match each side has won so far, by player and by colour.
-/

namespace EngineDuel

/-- The counts of a match. -/
structure Standings where
  games : UInt32 := 0
  aWins : UInt32 := 0
  bWins : UInt32 := 0
  draws : UInt32 := 0
  blackWins : UInt32 := 0
  whiteWins : UInt32 := 0
  deriving DecidableEq, Repr, Inhabited

namespace Standings

/-- The standings with one more result of a player, or a draw. -/
def countPlayer (s : Standings) : Option Player → Except Overflow Standings
  | some .a => do return { s with aWins := ← next s.aWins }
  | some .b => do return { s with bWins := ← next s.bWins }
  | none => do return { s with draws := ← next s.draws }

/-- The standings with one more result of a colour. -/
def countColor (s : Standings) : Option Color → Except Overflow Standings
  | some .black => do return { s with blackWins := ← next s.blackWins }
  | some .white => do return { s with whiteWins := ← next s.whiteWins }
  | none => .ok s

/-- The standings after one more game. -/
def record (s : Standings) (r : GameRecord) : Except Overflow Standings := do
  let s := { s with games := ← next s.games }
  let s ← s.countPlayer r.winningPlayer
  s.countColor r.winner

/-- A count as percentage of the games; zero before the first game. -/
def rate (s : Standings) (count : UInt32) : Float :=
  if s.games = 0 then 0.0
  else Float.ofNat count.toNat / Float.ofNat s.games.toNat * 100.0

end Standings

end EngineDuel

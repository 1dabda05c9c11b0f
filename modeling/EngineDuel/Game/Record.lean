import EngineDuel.Game.Side

/-!
# The record of a game

What is known about a game once it is over. A game without a winner is a draw, and scores half a
point for both players.
-/

namespace EngineDuel

/-- Why a game ended. -/
inductive Termination where
  /-- The side to move had no move and lost. -/
  | noLegalMove
  /-- Both engines declared the same result. -/
  | declared
  /-- The game reached its last turn and is a draw. -/
  | turnLimit
  /-- The side to move did not answer in time and lost. -/
  | timeout
  deriving DecidableEq, Repr, Inhabited

/-- The name of a reason in all output. -/
def Termination.name : Termination → String
  | noLegalMove => "no_legal_move"
  | declared => "declared"
  | turnLimit => "turn_limit"
  | timeout => "timeout"

/-- A finished game. -/
structure GameRecord where
  seating : Seating
  winner : Option Color
  termination : Termination
  turns : UInt32
  history : String
  board : String
  /-- What the clocks showed at the end, in milliseconds. -/
  remaining : ByPlayer UInt64
  deriving DecidableEq, Repr, Inhabited

namespace GameRecord

/-- The player with the winning colour. -/
def winningPlayer (r : GameRecord) : Option Player := r.winner.map r.seating.playerOf

/-- The points of a player: one for a win, half for a draw, none for a loss. -/
def score (r : GameRecord) (p : Player) : Float :=
  match r.winner with
  | none => 0.5
  | some c => if c = r.seating.colorOf p then 1.0 else 0.0

end GameRecord

end EngineDuel

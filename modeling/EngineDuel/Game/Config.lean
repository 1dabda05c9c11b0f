import EngineDuel.Duration
import EngineDuel.Game.Clock

/-!
# The rules of a game

What a referee is told before a game: the clocks, the last turn, how long to wait for an engine, and
which of its remarks to pass on.
-/

namespace EngineDuel

/-- The rules of a game. -/
structure GameConfig where
  clocks : ByPlayer ClockSettings := ⟨{}, {}⟩
  /-- The turn that ends a game in a draw; without one a game may go on. -/
  maxTurns : Option UInt32 := some 225
  /-- What is added to the time for one move to get the longest wait for a move. Without it a move is
  waited for as long as any other answer. -/
  marginMs : Option UInt64 := none
  /-- The longest wait for an answer. -/
  responseMs : UInt64 := 30000
  /-- The starts of the remarks that are passed on; if there are none, all are. -/
  echoPrefixes : List String := ["solution"]
  deriving Repr, Inhabited

namespace GameConfig

/-- The longest wait for a move. -/
def moveLimit (c : GameConfig) (clock : Clock) : Duration :=
  match c.marginMs with
  | some margin => .ofMillis (addCapped clock.turnBudget margin).toNat
  | none => .ofMillis c.responseMs.toNat

/-- Whether a remark is passed on. -/
def echoes (c : GameConfig) (line : String) : Bool :=
  c.echoPrefixes.isEmpty || c.echoPrefixes.any fun p => p.toList.isPrefixOf line.toList

/-- Whether a game is over after a turn without a result. -/
def isLastTurn (c : GameConfig) (turn : UInt32) : Bool :=
  match c.maxTurns with
  | some limit => limit ≤ turn
  | none => false

end GameConfig

end EngineDuel

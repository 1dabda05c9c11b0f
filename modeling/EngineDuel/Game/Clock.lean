import EngineDuel.Game.Side

/-!
# Clocks

A clock holds the time that a player has left, in milliseconds of 64 bits. It stops at zero and at
`2^64 - 1`. The time for one move is only told to the engine; the clock does not enforce it.
-/

namespace EngineDuel

/-- How a player's clock starts and runs. -/
structure ClockSettings where
  totalMs : UInt64 := 600000
  incrementMs : UInt64 := 10000
  turnMs : UInt64 := 100
  deriving DecidableEq, Repr, Inhabited

/-- A sum that stops at `2^64 - 1`. -/
def addCapped (a b : UInt64) : UInt64 :=
  if a.toNat + b.toNat < UInt64.size then a + b else 0xffffffffffffffff

theorem toNat_addCapped (a b : UInt64) :
    (addCapped a b).toNat = min (a.toNat + b.toNat) (UInt64.size - 1) := by
  unfold addCapped UInt64.size
  split
  · simp only [UInt64.toNat_add]
    omega
  · have : (0xffffffffffffffff : UInt64).toNat = 18446744073709551616 - 1 := by decide
    omega

/-- A difference that stops at zero. -/
def subFloored (a b : UInt64) : UInt64 := if b ≤ a then a - b else 0

theorem toNat_subFloored (a b : UInt64) : (subFloored a b).toNat = a.toNat - b.toNat := by
  unfold subFloored
  split
  · rename_i h
    exact UInt64.toNat_sub_of_le _ _ h
  · rename_i h
    have : ¬ b.toNat ≤ a.toNat := fun h' => h (UInt64.le_iff_toNat_le.mpr h')
    simp only [UInt64.toNat_zero]
    omega

/-- The clock of one player in one game. -/
structure Clock where
  remaining : UInt64
  increment : UInt64
  turnBudget : UInt64
  deriving DecidableEq, Repr, Inhabited

namespace Clock

/-- A clock before the first move. -/
def start (s : ClockSettings) : Clock := ⟨s.totalMs, s.incrementMs, s.turnMs⟩

/-- The clock after its player has thought for some time. -/
def consume (c : Clock) (ms : UInt64) : Clock := { c with remaining := subFloored c.remaining ms }

/-- The clock after its player has made a move. -/
def credit (c : Clock) : Clock := { c with remaining := addCapped c.remaining c.increment }

/-- The command that tells an engine how much time it has left. -/
def totalCommand (c : Clock) : String := "limit time total " ++ toString c.remaining.toNat

/-- The commands that tell an engine its limits before a game. -/
def limitCommands (c : Clock) : List String :=
  [c.totalCommand,
   "limit time increment " ++ toString c.increment.toNat,
   "limit time turn " ++ toString c.turnBudget.toNat]

end Clock

end EngineDuel

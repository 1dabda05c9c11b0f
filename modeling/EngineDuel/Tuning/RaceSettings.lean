import EngineDuel.Game.Clock
import EngineDuel.Tuning.Climb

/-!
# How two engines of a search play

A match of a search is a tournament that another program plays; these are the arguments which that
program gets. Parameters stand behind an equals sign, so that they may begin with a hyphen.
-/

namespace EngineDuel.Tuning

/-- How two engines play. -/
structure RaceSettings where
  /-- The program that plays tournaments. -/
  arenaPath : String
  /-- The arguments of both engines. -/
  engineParams : String
  numGames : UInt32
  clock : ClockSettings
  kFactor : Float
  /-- Further arguments for the program. -/
  extraArgs : List String := []

/-- The arguments of the program. -/
def RaceSettings.arguments (s : RaceSettings) (baseline target : Contestant) : List String :=
  ["--a-path", baseline.path,
   "--a-params=" ++ s.engineParams,
   "--b-path", target.path,
   "--b-params=" ++ s.engineParams,
   "--total-time", toString s.clock.totalMs.toNat,
   "--increment-time", toString s.clock.incrementMs.toNat,
   "--turn-time", toString s.clock.turnMs.toNat,
   "--num-games", toString s.numGames.toNat,
   "--a-elo", Number.plain baseline.rating,
   "--b-elo", Number.plain target.rating,
   "--elo-k-factor", Number.plain s.kFactor] ++ s.extraArgs

end EngineDuel.Tuning

import EngineDuel.Game.Error
import EngineDuel.Log

/-!
# Engines as the referee sees them

An engine is anything that answers one request after another: its state is arbitrary, and so is what
it answers. A request returns the answer together with the remarks that came before it, the time that
it took and what was logged meanwhile.
-/

namespace EngineDuel

/-- What one request brought. -/
structure Exchange where
  result : Except LinkError (Option String)
  /-- The remarks of the engine, in order. -/
  diagnostics : List String := []
  took : Duration := .zero
  log : List LogLine := []

/-- An engine with states in `σ`. -/
structure Engine (σ : Type) where
  label : σ → String
  /-- Sends a command and waits for the answer, for the given time or else as long as the engine's
  own limit says. -/
  request : σ → String → Option Duration → Exchange × σ
  /-- Stops the engine for good. -/
  terminate : σ → σ
  isTerminated : σ → Bool

end EngineDuel

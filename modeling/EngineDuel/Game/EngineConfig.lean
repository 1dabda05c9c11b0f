import EngineDuel.Game.Error
import EngineDuel.Text.Raw
import EngineDuel.Text.ShellWords

/-!
# How an engine is started

The path of a program and its arguments, which are given as one text and split as a shell would.
-/

namespace EngineDuel

/-- How an engine is started. -/
structure EngineConfig where
  path : RawText
  args : List String := []
  deriving DecidableEq, Repr, Inhabited

/-- A program with arguments in one text. -/
def EngineConfig.ofParams (path : RawText) (params : String) : Except GameError EngineConfig :=
  match Text.shellWords? params with
  | some args => .ok ⟨path, args⟩
  | none => .error (.invalidParams params)

end EngineDuel

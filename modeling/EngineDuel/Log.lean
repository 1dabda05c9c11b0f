/-!
# Log lines

What a run tells about itself beside its result.
-/

namespace EngineDuel

/-- How much a log line matters. -/
inductive Level where
  | error
  | warn
  | info
  | debug
  deriving DecidableEq, Repr

/-- The name of a level. -/
def Level.name : Level → String
  | .error => "ERROR"
  | .warn => "WARN"
  | .info => "INFO"
  | .debug => "DEBUG"

/-- A line of the log. -/
structure LogLine where
  level : Level
  text : String
  deriving DecidableEq, Repr

/-- What an action on a state brought, and what it logged on the way. -/
structure Step (σ ε α : Type) where
  result : Except ε α
  state : σ
  log : List LogLine := []

end EngineDuel

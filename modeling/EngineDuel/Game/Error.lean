import EngineDuel.Counter
import EngineDuel.Duration
import EngineDuel.Text.Quoted

/-!
# What can go wrong in a game

`LinkError` is the failure of one request to an engine, `GameError` the failure of a game. Inside a
game none of them can be mended; each is passed on with its cause.
-/

namespace EngineDuel

/-- Why a request to an engine failed. -/
inductive LinkError where
  /-- The engine answered that it refuses the command. -/
  | rejected (engine command message : String)
  /-- The engine's output ended before the answer. -/
  | disconnected (engine command : String)
  /-- The answer did not come in time. -/
  | timeout (engine command : String) (limit : Duration)
  /-- The answer never comes, and the wait for it has no limit: such a request does not return. -/
  | unanswered (engine command : String)
  /-- The engine had been stopped before. -/
  | terminated (engine : String)
  /-- The command could not be written. -/
  | broken (message : String)
  deriving DecidableEq, Repr

/-- The text of a failed request. -/
def LinkError.message : LinkError → String
  | .rejected engine command message =>
    engine ++ ": command `" ++ command ++ "` rejected: " ++ message
  | .disconnected engine command =>
    engine ++ ": engine closed its output while waiting for `" ++ command ++ "`"
  | .timeout engine command limit =>
    engine ++ ": no response to `" ++ command ++ "` within " ++ toString limit.wholeMillis ++ "ms"
  | .unanswered engine command => engine ++ ": no response to `" ++ command ++ "`"
  | .terminated engine => engine ++ ": engine already terminated"
  | .broken message => message

/-- Why a game could not be played to its end. -/
inductive GameError where
  /-- An engine could not be started. -/
  | spawn (path reason : String)
  /-- The arguments of an engine have an open quote. -/
  | invalidParams (params : String)
  /-- A request failed. -/
  | link (cause : LinkError)
  /-- An engine answered `gen` without a move. -/
  | emptyMove (engine : String) (turn : UInt32)
  /-- The engines did not agree on the result of a move. -/
  | winnerMismatch (turn : UInt32) (token mover : String) (moverWinner : Option String)
      (opponent : String) (opponentWinner : Option String)
  /-- The turn counter outgrew its bits. -/
  | overflow (cause : Overflow)
  deriving DecidableEq, Repr

namespace GameError

/-- The text of a failed game. -/
def message : GameError → String
  | spawn path reason => "failed to spawn engine at " ++ path ++ ": " ++ reason
  | invalidParams params => "unbalanced quotes in engine params: " ++ params
  | link cause => cause.message
  | emptyMove engine turn =>
    engine ++ ": empty reply to `gen` at turn " ++ toString turn.toNat
  | winnerMismatch turn token mover moverWinner opponent opponentWinner =>
    "engines disagree on the winner after `play " ++ token ++ "` (turn " ++ toString turn.toNat
      ++ "): " ++ mover ++ "=" ++ Text.quotedOption moverWinner ++ ", "
      ++ opponent ++ "=" ++ Text.quotedOption opponentWinner
  | overflow cause => cause.message

/-- The texts of a failed game and of its causes, outermost first. -/
def causes : GameError → List String
  | spawn path reason => [(spawn path reason).message, reason]
  | e => [e.message]

end GameError

end EngineDuel

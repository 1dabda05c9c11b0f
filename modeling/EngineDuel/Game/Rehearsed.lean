import EngineDuel.Game.Engine
import EngineDuel.Text.Blank

/-!
# Rehearsed engines

An engine whose answers are laid down beforehand, a list for each command. Where a list has run out
it answers as an engine that accepts everything: its moves are `m1`, `m2` and so on, its history is
what was played, and its board tells the number of moves.
-/

namespace EngineDuel.Game

/-- How a rehearsed request ends. -/
inductive Ending where
  | answer (text : Option String)
  | timeout
  | refuse (message : String)
  | hangUp
  | breakDown (message : String)
  deriving DecidableEq, Repr

/-- A rehearsed answer. -/
structure Cue where
  /-- The remarks before the answer. -/
  remarks : List String := []
  /-- The time that passes before the answer. -/
  after : Duration := .zero
  ending : Ending
  deriving DecidableEq, Repr

/-- An answer at once. -/
def Cue.now (text : Option String) : Cue := { ending := .answer text }

/-- A rehearsed engine. -/
structure Rehearsed where
  label : String
  limit : List Cue := []
  gen : List Cue := []
  play : List Cue := []
  history : List Cue := []
  board : List Cue := []
  /-- What was played, last first. -/
  played : List (List Char) := []
  terminated : Bool := false
  deriving DecidableEq, Repr

namespace Rehearsed

/-- The next answer of a list, and the list after it. -/
def takeCue (default : Option String) : List Cue → Cue × List Cue
  | [] => (.now default, [])
  | cue :: rest => (cue, rest)

/-- The next move of an engine without a list. -/
def ownMove (r : Rehearsed) : String := "m" ++ toString (r.played.length + 1)

/-- The history of an engine without a list. -/
def ownHistory (r : Rehearsed) : String := String.ofList (Text.join [' '] r.played.reverse)

/-- The board of an engine without a list. -/
def ownBoard (r : Rehearsed) : String := toString r.played.length ++ " stones"

/-- The answer to a command. -/
def next (r : Rehearsed) (command : List Char) : Cue × Rehearsed :=
  let verb := command.takeWhile (· ≠ ' ')
  let rest := (command.dropWhile (· ≠ ' ')).drop 1
  if verb = "limit".toList then
    let (cue, limit) := takeCue none r.limit
    (cue, { r with limit })
  else if verb = "gen".toList then
    let (cue, gen) := takeCue (some r.ownMove) r.gen
    (cue, { r with gen })
  else if verb = "play".toList then
    let (cue, play) := takeCue none r.play
    (cue, { r with play, played := rest :: r.played })
  else if verb = "history".toList then
    let (cue, history) := takeCue (some r.ownHistory) r.history
    (cue, { r with history })
  else if verb = "board".toList then
    let (cue, board) := takeCue (some r.ownBoard) r.board
    (cue, { r with board })
  else (.now none, r)

/-- The result of a request that ends in some way. -/
def result (label command : String) (limit : Option Duration) :
    Ending → Except LinkError (Option String)
  | .answer text => .ok text
  | .timeout => .error (.timeout label command (limit.getD .zero))
  | .refuse message => .error (.rejected label command message)
  | .hangUp => .error (.disconnected label command)
  | .breakDown message => .error (.broken message)

/-- Answers a request. -/
def request (r : Rehearsed) (command : String) (limit : Option Duration) : Exchange × Rehearsed :=
  if r.terminated then ({ result := .error (.terminated r.label) }, r)
  else
    let (cue, r') := r.next command.toList
    ({ result := result r.label command limit cue.ending
       diagnostics := cue.remarks
       took := cue.after }, r')

/-- Rehearsed engines as engines of a game. -/
def engine : Engine Rehearsed where
  label := label
  request := request
  terminate r := { r with terminated := true }
  isTerminated := terminated

end Rehearsed

end EngineDuel.Game

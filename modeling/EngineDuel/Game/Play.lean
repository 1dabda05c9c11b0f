import EngineDuel.Game.Config
import EngineDuel.Game.Declaration
import EngineDuel.Game.Engine
import EngineDuel.Game.Record

/-!
# Playing one game

The referee tells both engines their limits, A first, and then lets black and white move in turn. In
each turn it asks the mover for a move (`gen`), tells the move to the mover and then to the opponent
(`play`), compares what they declare, and tells the mover the time that it has left. After the last
turn it asks one engine that is still running for the history and the board.

Everything that happens is an event, in order: `play` returns the result, the engines and the events.
A game ends with a verdict in four ways: the mover has no move, does not answer in time, both engines
declare the same result, or the last turn is over.
-/

namespace EngineDuel.Game

variable {α β τ υ : Type}

/-- A move that both engines accepted. -/
structure Move where
  turn : UInt32
  player : Player
  color : Color
  token : String
  elapsedMs : UInt64
  /-- What the mover's clock showed after the move, before the increment. -/
  remainingMs : UInt64
  deriving DecidableEq, Repr

/-- Something that happened in a game. -/
inductive Event where
  /-- A request to a player's engine, and what it brought. -/
  | request (player : Player) (label command : String) (limit : Option Duration)
      (exchange : Exchange)
  /-- A remark of the mover that was passed on. -/
  | diagnostic (player : Player) (line : String)
  | move (m : Move)
  /-- A player's engine was stopped. -/
  | terminate (player : Player) (label : String)
  | note (line : LogLine)

/-- The two engines of a game. -/
structure Engines (α β : Type) where
  a : Engine α
  b : Engine β

/-- The states of the two engines. -/
structure States (α β : Type) where
  a : α
  b : β

/-- A part of a game: from the states of the engines it computes a value or fails, with new states
and the events on the way. -/
structure Part (α β τ : Type) where
  run : States α β → Except GameError τ × States α β × List Event

namespace Part

/-- A value, without an event. -/
def done (x : τ) : Part α β τ := ⟨fun s => (.ok x, s, [])⟩

/-- One part after another; the first failure ends both. -/
def andThen (p : Part α β τ) (f : τ → Part α β υ) : Part α β υ :=
  ⟨fun s =>
    match p.run s with
    | (.ok x, s', events) =>
      let (result, s'', more) := (f x).run s'
      (result, s'', events ++ more)
    | (.error e, s', events) => (.error e, s', events)⟩

instance : Monad (Part α β) where
  pure := done
  bind := andThen

/-- The end of a game without a record. -/
def fail (e : GameError) : Part α β τ := ⟨fun s => (.error e, s, [])⟩

/-- One event. -/
def emit (e : Event) : Part α β Unit := ⟨fun s => (.ok (), s, [e])⟩

end Part

namespace Engines

variable (engines : Engines α β)

/-- The label of a player's engine. -/
def label (s : States α β) : Player → String
  | .a => engines.a.label s.a
  | .b => engines.b.label s.b

/-- Whether a player's engine has been stopped. -/
def isTerminated (s : States α β) : Player → Bool
  | .a => engines.a.isTerminated s.a
  | .b => engines.b.isTerminated s.b

/-- A request to a player's engine, and the states after it. -/
def request (s : States α β) (p : Player) (command : String) (limit : Option Duration) :
    Exchange × States α β :=
  match p with
  | .a =>
    let (exchange, a) := engines.a.request s.a command limit
    (exchange, { s with a })
  | .b =>
    let (exchange, b) := engines.b.request s.b command limit
    (exchange, { s with b })

/-- The states after a player's engine has been stopped. -/
def terminate (s : States α β) : Player → States α β
  | .a => { s with a := engines.a.terminate s.a }
  | .b => { s with b := engines.b.terminate s.b }

/-- Asks a player's engine, whatever comes of it. -/
def ask (p : Player) (command : String) (limit : Option Duration) : Part α β Exchange :=
  ⟨fun s =>
    let (exchange, s') := engines.request s p command limit
    (.ok exchange, s', [.request p (engines.label s p) command limit exchange])⟩

/-- Asks a player's engine within its own limit; a failed request ends the game. -/
def require (p : Player) (command : String) : Part α β (Option String) := do
  let exchange ← engines.ask p command none
  match exchange.result with
  | .ok answer => return answer
  | .error e => Part.fail (.link e)

/-- Asks for several things in order. -/
def requireAll (p : Player) : List String → Part α β Unit
  | [] => return ()
  | command :: rest => do
    let _ ← engines.require p command
    requireAll p rest

/-- Stops a player's engine. -/
def stop (p : Player) : Part α β Unit :=
  ⟨fun s => (.ok (), engines.terminate s p, [.terminate p (engines.label s p)])⟩

/-- The label of a player's engine, as a part of a game. -/
def labelOf (p : Player) : Part α β String := ⟨fun s => (.ok (engines.label s p), s, [])⟩

/-- The player whose engine is asked after the game: A, unless it has been stopped. -/
def survivor : Part α β Player :=
  ⟨fun s => (.ok (if engines.isTerminated s .a then .b else .a), s, [])⟩

end Engines

/-- Passes on those of a player's remarks that the rules let through. -/
def passOn (c : GameConfig) (p : Player) (lines : List String) : Part α β Unit :=
  ⟨fun s => (.ok (), s, (lines.filter c.echoes).map (.diagnostic p))⟩

/-- How a game ended. -/
structure Verdict where
  winner : Option Color
  termination : Termination
  turns : UInt32
  clocks : ByPlayer Clock

/-- How a turn ended: with the game, or with the clocks for the next turn. -/
inductive TurnEnd where
  | over (winner : Option Color) (termination : Termination) (clocks : ByPlayer Clock)
  | goOn (clocks : ByPlayer Clock)

/-- The log line of a move. -/
def moveNote (turn : UInt32) (label : String) (color : Color) (token : String) (ms : UInt64) :
    LogLine :=
  ⟨.debug, "turn " ++ toString turn.toNat ++ ": " ++ label ++ " (" ++ color.name ++ ") -> " ++ token
    ++ " in " ++ toString ms.toNat ++ "ms"⟩

/-- The part of a turn after the mover has named a move: both engines play it and the mover's clock
is credited. -/
def playMove (engines : Engines α β) (c : GameConfig) (seating : Seating) (turn : UInt32)
    (color : Color) (clocks : ByPlayer Clock) (token : String) (elapsed : UInt64) :
    Part α β TurnEnd := do
  let mover := seating.playerOf color
  let own ← engines.require mover ("play " ++ token)
  let others ← engines.require mover.other ("play " ++ token)
  if own ≠ others then
    let label ← engines.labelOf mover
    let otherLabel ← engines.labelOf mover.other
    Part.fail (.winnerMismatch turn token label own otherLabel others)
  else
    Part.emit (.move ⟨turn, mover, color, token, elapsed, (clocks.get mover).remaining⟩)
    match own with
    | some text => return .over (declaredWinner text) .declared clocks
    | none =>
      let credited := (clocks.get mover).credit
      let clocks := clocks.set mover credited
      let _ ← engines.require mover credited.totalCommand
      if c.isLastTurn turn then return .over none .turnLimit clocks
      else return .goOn clocks

/-- One turn. -/
def playTurn (engines : Engines α β) (c : GameConfig) (seating : Seating) (turn : UInt32)
    (color : Color) (clocks : ByPlayer Clock) : Part α β TurnEnd := do
  let mover := seating.playerOf color
  let clock := clocks.get mover
  let exchange ← engines.ask mover "gen" (some (c.moveLimit clock))
  passOn c mover exchange.diagnostics
  let elapsed := exchange.took.millis
  let clocks := clocks.set mover (clock.consume elapsed)
  match exchange.result with
  | .error (.timeout ..) =>
    engines.stop mover
    return .over (some color.flip) .timeout clocks
  | .error e => Part.fail (.link e)
  | .ok none =>
    let label ← engines.labelOf mover
    Part.fail (.emptyMove label turn)
  | .ok (some token) =>
    let label ← engines.labelOf mover
    Part.emit (.note (moveNote turn label color token elapsed))
    if token = "none" then return .over (some color.flip) .noLegalMove clocks
    else playMove engines c seating turn color clocks token elapsed

/-- The turns after turn number `turn`, of which the turn counter allows `left` more. -/
def playTurns (engines : Engines α β) (c : GameConfig) (seating : Seating) :
    Nat → UInt32 → Color → ByPlayer Clock → Part α β Verdict
  | 0, _, _, _ => Part.fail (.overflow .onAddition)
  | left + 1, turn, color, clocks => do
    let turn := turn + 1
    match ← playTurn engines c seating turn color clocks with
    | .over winner termination clocks => return ⟨winner, termination, turn, clocks⟩
    | .goOn clocks => playTurns engines c seating left turn color.flip clocks

/-- A whole game. -/
def game (engines : Engines α β) (c : GameConfig) (seating : Seating) : Part α β GameRecord := do
  let clocks : ByPlayer Clock := ⟨.start c.clocks.a, .start c.clocks.b⟩
  engines.requireAll .a clocks.a.limitCommands
  engines.requireAll .b clocks.b.limitCommands
  let verdict ← playTurns engines c seating (UInt32.size - 1) 0 .black clocks
  let reader ← engines.survivor
  let history ← engines.require reader "history"
  let board ← engines.require reader "board"
  return {
    seating
    winner := verdict.winner
    termination := verdict.termination
    turns := verdict.turns
    history := history.getD ""
    board := board.getD ""
    remaining := ⟨verdict.clocks.a.remaining, verdict.clocks.b.remaining⟩ }

/-- What came of a game. -/
structure Outcome (α β : Type) where
  result : Except GameError GameRecord
  states : States α β
  events : List Event

/-- Plays a game. -/
def play (engines : Engines α β) (states : States α β) (seating : Seating) (c : GameConfig) :
    Outcome α β :=
  let (result, states, events) := (game engines c seating).run states
  ⟨result, states, events⟩

/-- The log lines of an event. -/
def Event.log : Event → List LogLine
  | .request _ _ _ _ exchange => exchange.log
  | .note line => [line]
  | _ => []

end EngineDuel.Game

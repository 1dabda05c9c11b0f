import EngineDuel.Duration
import EngineDuel.Game.Side
import EngineDuel.Number.Numeral
import EngineDuel.Text.Lines
import EngineDuel.Wire.Session

/-!
# The scripted engine

An engine that knows no rules: it fills a board of fifteen rows from the lower left corner, one field
for each move played. Its options make it end a game, give up, stall, think, talk or refuse a
command, so that a referee can be seen at work.
-/

namespace EngineDuel.Scripted

/-- The number of rows and of columns. -/
def boardSize : Nat := 15

/-- How an engine behaves. -/
structure Options where
  /-- The move with which the game ends. -/
  finishAfter : Option Nat := none
  /-- What is declared at the end, instead of a win for who has moved last. -/
  winner : Option String := none
  /-- The number of moves after which the engine has no move. -/
  noneAt : Option Nat := none
  /-- The number of moves after which the engine does not answer `gen`. -/
  stallAt : Option Nat := none
  /-- How long the engine thinks before each move, in milliseconds. -/
  thinkMs : UInt64 := 0
  /-- Whether the engine talks before each move. -/
  chatter : Bool := false
  /-- The command that is refused. -/
  reject : Option String := none
  /-- The file into which the engine writes its process number. -/
  pidFile : Option String := none
  deriving DecidableEq, Repr, Inhabited

/-- What an engine remembers. -/
structure State where
  /-- The moves played. -/
  moves : List (List Char) := []
  /-- The time left that it was told last. -/
  totalMs : UInt64 := 0
  deriving DecidableEq, Repr, Inhabited

/-- The name of a field, counted from the lower left corner. -/
def coordinate (n : Nat) : List Char :=
  Char.ofNat ('a'.toNat + n % boardSize) :: Nat.toDigits 10 (n / boardSize + 1)

/-- The colour that makes a move, counted from one. -/
def colorOfPly (ply : Nat) : Color := if ply % 2 = 1 then .black else .white

namespace State

/-- What stands on a field: the first move there counts. -/
def cell (s : State) (n : Nat) : Char :=
  match s.moves.idxOf? (coordinate n) with
  | some i => if i % 2 = 0 then 'X' else 'O'
  | none => '.'

/-- A row of the board, counted from below. -/
def row (s : State) (r : Nat) : List Char :=
  (List.range boardSize).map fun column => s.cell (r * boardSize + column)

/-- The rows of the board, the highest first. -/
def rows (s : State) : List (List Char) := (List.range boardSize).reverse.map s.row

end State

/-- What an engine does on a line of input. -/
inductive Reaction where
  /-- It thinks for some time and then writes lines. -/
  | lines (think : Duration) (lines : List (List Char))
  /-- It never writes anything again. -/
  | stall
  /-- It stops. -/
  | quit
  deriving DecidableEq, Repr

/-- Lines without thinking. -/
def Reaction.now (ls : List (List Char)) : Reaction := .lines .zero ls

/-- The lines of a text that is written with a line feed after it. -/
def textLines (text : List Char) : List (List Char) := Text.splitAt (· == '\n') text

/-- A refusal. -/
def refusal (message : List Char) : Reaction := .now [['?', ' '] ++ message]

/-- The time left that a command tells, if it is such a command and its number fits 64 bits. -/
def toldTotal? : List (List Char) → Option UInt64
  | [time, total, ms] =>
    if time = "time".toList && total = "total".toList then
      (Number.natural? (UInt64.size - 1) ms).map UInt64.ofNat
    else none
  | _ => none

/-- The reaction to `gen`. -/
def onGen (o : Options) (s : State) : Reaction :=
  let ply := s.moves.length
  if o.stallAt = some ply then .stall
  else if o.noneAt = some ply then .now ["= none".toList]
  else
    let move := coordinate ply
    let talk := if o.chatter then
        [("info depth 1 nodes " ++ toString (ply + 1)).toList,
         "solution: pos=".toList ++ move ++ (", total=" ++ toString s.totalMs.toNat).toList]
      else []
    .lines (.ofMillis o.thinkMs.toNat) (talk ++ [['=', ' '] ++ move])

/-- The reply to the move with a number, counted from one. -/
def onPly (o : Options) (ply : Nat) : Reaction :=
  if o.finishAfter = some ply then
    let text := (o.winner.getD ((colorOfPly ply).name ++ " wins")).toList
    .now (textLines (['=', ' '] ++ text))
  else .now [['=']]

/-- The reaction to a command and its arguments. -/
def onCommand (o : Options) (s : State) (command : List Char) (args : List (List Char)) :
    Reaction × State :=
  if o.reject.map String.toList = some command then
    (refusal (command ++ " is not available".toList), s)
  else if command = "limit".toList then
    (.now [['=']], { s with totalMs := (toldTotal? args).getD s.totalMs })
  else if command = "gen".toList then (onGen o s, s)
  else if command = "play".toList then
    match args with
    | [] => (refusal "missing move".toList, s)
    | move :: _ =>
      let s := { s with moves := s.moves ++ [move] }
      (onPly o s.moves.length, s)
  else if command = "history".toList then
    (.now [['=', ' '] ++ Text.join [' '] s.moves], s)
  else if command = "board".toList then
    (.now (textLines (['=', Wire.streamStart] ++ Text.join ['\n'] s.rows
      ++ ['\n', Wire.streamEnd])), s)
  else (refusal ("unknown command: ".toList ++ command), s)

/-- The reaction to a line of input. A line of blanks asks for nothing. -/
def onLine (o : Options) (s : State) (line : List Char) : Reaction × State :=
  match Text.words line with
  | [] => (.now [], s)
  | command :: args =>
    if command = "quit".toList then (.quit, s) else onCommand o s command args

/-! ## The engine behind a pipe -/

/-- A scripted engine in a conversation. -/
structure Talker where
  options : Options
  state : State := {}
  /-- The start of a line that is not complete yet. -/
  partialLine : List UInt8 := []
  /-- Whether it has stopped or stalls: it reads nothing any more. -/
  stopped : Bool := false

/-- What one line brings. -/
def Talker.hearLine (t : Talker) (line : List UInt8) : Wire.Arrival × Talker :=
  if t.stopped then ({}, t)
  else
    match Text.decode? (Text.dropReturn line) with
    | none => ({ ended := true }, { t with stopped := true })
    | some text =>
      let (reaction, state) := onLine t.options t.state text.toList
      let t := { t with state }
      match reaction with
      | .lines think ls => ({ lines := ls.map (.line ∘ String.ofList), took := think }, t)
      | .stall => ({}, { t with stopped := true })
      | .quit => ({ ended := true }, { t with stopped := true })

/-- What several lines bring. -/
def Talker.hearLines (t : Talker) : List (List UInt8) → Wire.Arrival × Talker
  | [] => ({}, t)
  | line :: rest =>
    let (first, t) := t.hearLine line
    let (more, t) := t.hearLines rest
    ({ lines := first.lines ++ more.lines
       ended := first.ended || more.ended
       took := first.took + more.took }, t)

/-- What some bytes bring. -/
def Talker.hear (t : Talker) (bytes : List UInt8) : Wire.Arrival × Talker :=
  let pieces := Text.splitAt (· == Text.lineFeed) (t.partialLine ++ bytes)
  let (arrival, t) := t.hearLines pieces.dropLast
  (arrival, { t with partialLine := pieces.getLast?.getD [] })

/-- Scripted engines as peers. -/
def peer : Wire.Peer Talker where
  hear := Talker.hear

/-- A client with a new scripted engine. -/
def session (label : String) (limit : Option Duration) (o : Options) : Wire.Session Talker where
  client := { label, defaultLimit := limit, pipe := some { fault := "" }, inbox := { ended := false } }
  peer := { options := o }

end EngineDuel.Scripted

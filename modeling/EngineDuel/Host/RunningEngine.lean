import EngineDuel.Game.EngineConfig
import EngineDuel.Game.Play
import EngineDuel.Host.Task
import EngineDuel.Wire.Client

/-!
# Engines that run as programs

A running engine is a program in conversation with a client. The program runs until it waits for a
line that has not been sent, stalls, or has used up the time for which the client waits. Its outputs
become lines for the client, with the pauses between them. When the outputs of a program that has
ended were seen to end, nothing can be sent to it any more.

A running engine is stopped in one of two ways: at once, when it was too slow, or by the command
`quit`, after which it has some time to end by itself.
-/

namespace EngineDuel.Host

/-! ## Running for a time -/

/-- What a program did towards its client. -/
inductive Happening where
  | wrote (c : Channel) (data : List UInt8)
  | closed (c : Channel)
  | paused (d : Duration)

/-- A program that was run until it could not go on. -/
structure Progress where
  /-- What the program does next. -/
  program : Program
  files : Workspace
  /-- The input that it has not read. -/
  input : List UInt8
  /-- What it did, last first. -/
  happened : List Happening := []

/-- The next line of an input and the rest, if the line is complete or the input has ended. -/
def nextLine? (ended : Bool) (input : List UInt8) : Option (List UInt8 × List UInt8) :=
  let start := input.takeWhile (· ≠ Text.lineFeed)
  match input.drop start.length with
  | lf :: rest => some (start ++ [lf], rest)
  | [] => if ended then some (start, []) else none

/-- Runs a program as long as it can go on within the given time, or without a limit. -/
def Task.advance (ended : Bool) : Program → Option Duration → Workspace → List UInt8 →
    List Happening → Progress
  | done e, _, files, input, h =>
    { program := .done e, files, input, happened := .closed .err :: .closed .out :: h }
  | emit c data next, budget, w, input, h =>
    (next ()).advance ended budget w input (.wrote c data :: h)
  | listen next, budget, w, input, h =>
    match nextLine? ended input with
    | some (line, rest) => (next line).advance ended budget w rest h
    | none => { program := .listen next, files := w, input, happened := h }
  | close c next, budget, w, input, h => (next ()).advance ended budget w input (.closed c :: h)
  | pause d next, budget, w, input, h =>
    match budget with
    | none => (next ()).advance ended none w input (.paused d :: h)
    | some b =>
      if b.nanos < d.nanos then
        { program := .pause ⟨d.nanos - b.nanos⟩ next, files := w, input
          happened := .paused b :: h }
      else (next ()).advance ended (some ⟨b.nanos - d.nanos⟩) w input (.paused d :: h)
  | look next, budget, w, input, h => (next w).advance ended budget w input h
  | store w next, budget, _, input, h => (next ()).advance ended budget w input h
  | stall, _, files, input, h => { program := .stall, files, input, happened := h }

/-! ## Outputs as lines -/

/-- An output of a program as the client reads it. -/
structure Output where
  /-- The start of a line that is not complete. -/
  start : List UInt8 := []
  /-- Whether it is still read: not after its end, nor after a line that is not UTF-8. -/
  isOpen : Bool := true

namespace Output

/-- The lines that are complete, without their line feeds. Reading stops at one that is not UTF-8. -/
def takeLines : List (List UInt8) → List String × Bool
  | [] => ([], true)
  | line :: rest =>
    match Text.decode? line with
    | some text =>
      let (texts, ok) := takeLines rest
      (text :: texts, ok)
    | none => ([], false)

/-- The lines that more bytes complete. -/
def receive (o : Output) (data : List UInt8) : List String × Output :=
  if o.isOpen then
    let pieces := Text.splitAt (· == Text.lineFeed) (o.start ++ data)
    let (texts, ok) := takeLines (pieces.dropLast.map Text.dropReturn)
    (texts, ⟨pieces.getLast?.getD [], ok⟩)
  else ([], o)

/-- The line that the end of the output completes. -/
def finish (o : Output) : List String × Output :=
  if o.isOpen && !o.start.isEmpty then ((takeLines [o.start]).1, ⟨[], false⟩)
  else ([], ⟨[], false⟩)

end Output

/-! ## Running engines -/

/-- An engine that runs as a program. -/
structure RunningEngine where
  client : Wire.Client
  program : Program
  files : Workspace
  /-- What was sent to the program and has not been read by it. -/
  input : List UInt8 := []
  /-- Whether nothing more will be sent. -/
  inputEnded : Bool := false
  out : Output := {}
  err : Output := {}
  /-- Whether the program has been stopped, or was seen to have ended. -/
  gone : Bool := false

namespace RunningEngine

/-- The time that passes at least before a program answers. -/
def latency : Duration := ⟨1⟩

/-- How long a program may take to end after `quit`. -/
def quitLimit : Duration := .ofMillis 3000

/-- The label of an engine. -/
def label (p : RunningEngine) : String := p.client.label

/-- A line of an output as it comes to the client. -/
def incoming (c : Channel) (line : String) : Wire.Incoming :=
  match c with
  | .out => .line line
  | .err => .errorLine line

/-- The engine after something happened. -/
def take (p : RunningEngine) : Happening → RunningEngine
  | .paused d => { p with client := p.client.receive [.pause d] }
  | .wrote .out data =>
    let (lines, out) := p.out.receive data
    { p with out, client := p.client.receive (lines.map (incoming .out)) }
  | .wrote .err data =>
    let (lines, err) := p.err.receive data
    { p with err, client := p.client.receive (lines.map (incoming .err)) }
  | .closed .out =>
    let (lines, out) := p.out.finish
    { p with out, client := p.client.receive (lines.map (incoming .out)) }
  | .closed .err =>
    let (lines, err) := p.err.finish
    { p with err, client := p.client.receive (lines.map (incoming .err)) }

/-- The client when neither output is read any more: nothing more will come. -/
def noteEnd (p : RunningEngine) : RunningEngine :=
  if p.out.isOpen || p.err.isOpen then p else { p with client := p.client.endOutput }

/-- Whether the program has ended. -/
def hasEnded (p : RunningEngine) : Bool :=
  match p.program with
  | .done _ => true
  | _ => false

/-- The engine after a request: once its outputs were seen to end with its program, what is sent to it
does not get through. -/
def noteBroken (p : RunningEngine) : Except LinkError (Option String) → RunningEngine
  | .error (.disconnected ..) =>
    if p.hasEnded then
      { p with client := { p.client with pipe := p.client.pipe.map ({ · with room := some 0 }) } }
    else p
  | _ => p

/-- The pauses in what waits for the client. -/
def pending (p : RunningEngine) : Nat :=
  p.client.inbox.queue.foldl (fun total x =>
    match x with
    | .pause d => total + d.nanos
    | _ => total) 0

/-- Lets the program run for as long as the client waits. -/
def advance (p : RunningEngine) (limit : Option Duration) : RunningEngine :=
  let budget := limit.map fun d => ⟨d.nanos - p.pending⟩
  let r := p.program.advance p.inputEnded budget p.files p.input []
  let p := { p with program := r.program, files := r.files, input := r.input }
  ((.paused latency :: r.happened.reverse).foldl take p).noteEnd

/-- Sends a command and waits for the reply. -/
def request (p : RunningEngine) (command : String) (own : Option Duration) : Exchange × RunningEngine :=
  let limit := p.client.limitOf own
  let sending := p.client.send command
  let p := { p with client := sending.client, input := p.input ++ sending.delivered }
  match sending.result with
  | .error e => ({ result := .error e, log := sending.log }, p)
  | .ok () =>
    let p := p.advance limit
    let (exchange, client) := p.client.await command limit
    ({ exchange with log := sending.log ++ exchange.log },
     { p with client }.noteBroken exchange.result)

/-- Stops the program at once. -/
def kill (p : RunningEngine) : RunningEngine :=
  if p.gone then p else { p with client := p.client.close.2, program := .stall, gone := true }

/-- The log line of an engine that is stopped at once. -/
def killNote (label : String) : LogLine := ⟨.warn, label ++ ": terminating engine process"⟩

/-- The log line of an engine that does not end by itself. -/
def quitNote (label : String) : LogLine :=
  ⟨.warn, label ++ ": did not exit after quit, killing"⟩

/-- Sends `quit` and waits for the end; stops the program if it takes too long. -/
def quit (p : RunningEngine) : RunningEngine × List LogLine :=
  if p.gone then (p, [])
  else
    let sending := p.client.send "quit"
    let p := { p with
      client := sending.client.close.2
      input := p.input ++ sending.delivered
      inputEnded := true }
    let p := p.advance (some quitLimit)
    if p.hasEnded then ({ p with gone := true }, sending.log)
    else (p.kill, sending.log ++ [quitNote p.label])

/-- Running engines as engines of a game. -/
def engine : Engine RunningEngine where
  label := label
  request := request
  terminate := kill
  isTerminated p := p.gone || p.client.isClosed

/-- The program that a configuration names, with a client for it. -/
def start (launch : Launcher) (files : Workspace) (cwd : Place) (c : EngineConfig) (label : String)
    (limit : Option Duration) : Except GameError RunningEngine :=
  match launch { path := c.path, args := c.args.map .text, cwd } files with
  | .ok program => .ok {
      client := {
        label
        defaultLimit := limit
        pipe := some { fault := Fault.brokenPipe.message }
        inbox := { ended := false } }
      program
      files }
  | .error f => .error (.spawn c.path.shown f.message)

end RunningEngine

/-! ## Games between programs -/

/-- What came of a game between programs. -/
structure Played where
  result : Except GameError GameRecord
  files : Workspace
  events : List Game.Event := []
  log : List LogLine := []

/-- The log lines of an event between programs. -/
def eventLog : Game.Event → List LogLine
  | .terminate _ label => [RunningEngine.killNote label]
  | e => e.log

/-- Starts two programs, A first, and lets them play a game. Both have ended afterwards. Each sees the
files as they were when it was started, with its own changes. -/
def playGame (launch : Launcher) (files : Workspace) (cwd : Place) (engines : ByPlayer EngineConfig)
    (seating : Seating) (config : GameConfig) : Played :=
  let limit := some (Duration.ofMillis config.responseMs.toNat)
  match RunningEngine.start launch files cwd engines.a "a" limit with
  | .error e => { result := .error e, files }
  | .ok a =>
    match RunningEngine.start launch files cwd engines.b "b" limit with
    | .error e =>
      let (a, log) := a.quit
      { result := .error e, files := a.files, log }
    | .ok b =>
      let o := Game.play ⟨RunningEngine.engine, RunningEngine.engine⟩ ⟨a, b⟩ seating config
      let (b, logB) := o.states.b.quit
      let (a, logA) := o.states.a.quit
      { result := o.result
        files := files.merge a.files b.files
        events := o.events
        log := o.events.flatMap eventLog ++ logB ++ logA }

end EngineDuel.Host

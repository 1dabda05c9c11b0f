import EngineDuel.Game.Engine
import EngineDuel.Wire.Inbox
import EngineDuel.Wire.Pipe

/-!
# The conversation with an engine

A client sends one command at a time and then waits for its reply. It is the only one who writes to
the engine and who reads from it, so a reply belongs to the last command. Once the client has been
closed it sends nothing any more.
-/

namespace EngineDuel.Wire

/-- One end of a conversation. -/
structure Client where
  label : String
  /-- How long a reply is waited for if a request does not say. -/
  defaultLimit : Option Duration := none
  /-- The way to the engine, until it is closed. -/
  pipe : Option Pipe
  inbox : Inbox
  deriving Repr

/-- What sending a line did. -/
structure Sending where
  result : Except LinkError Unit
  /-- The bytes that got through to the engine. -/
  delivered : List UInt8 := []
  log : List LogLine := []
  client : Client

/-- What a request brings after its command was sent: the failure if it was not sent, and otherwise
what a wait brings. Returns also the bytes that got through. -/
def Sending.thenAwait {σ : Type} (s : Sending) (state : σ) (await : σ → Exchange × σ) :
    Exchange × List UInt8 × σ :=
  match s.result with
  | .error e => ({ result := .error e, log := s.log }, s.delivered, state)
  | .ok () =>
    let (exchange, state') := await state
    ({ exchange with log := s.log ++ exchange.log }, s.delivered, state')

namespace Client

/-- Whether the client has been closed. -/
def isClosed (c : Client) : Bool := c.pipe.isNone

/-- Sends a line, whether or not it is a command. -/
def send (c : Client) (line : String) : Sending :=
  match c.pipe with
  | none => { result := .error (.terminated c.label), client := c }
  | some pipe =>
    let t := pipe.sendLine line
    { result := if t.ok then .ok () else .error (.broken pipe.fault)
      delivered := t.delivered
      log := [⟨.debug, c.label ++ " <- " ++ line⟩]
      client := { c with pipe := some t.pipe } }

/-- Closes the way to the engine; what was held back is sent as far as it can be. Returns the bytes
that got through. -/
def close (c : Client) : List UInt8 × Client :=
  match c.pipe with
  | none => ([], c)
  | some pipe => (pipe.flush.delivered, { c with pipe := none })

/-- Lines that arrive from the engine. -/
def receive (c : Client) (lines : List Incoming) : Client :=
  { c with inbox := { c.inbox with queue := c.inbox.queue ++ lines } }

/-- The end of the engine's output, after the lines that wait. -/
def endOutput (c : Client) : Client := { c with inbox := { c.inbox with ended := true } }

/-- The failed request that a missing reply amounts to. -/
def failure (label command : String) (limit : Option Duration) : Missing → LinkError
  | .refused message => .rejected label command message
  | .ended => .disconnected label command
  | .late => .timeout label command (limit.getD .zero)
  | .silent => .unanswered label command

/-- Waits for the reply to a command. -/
def await (c : Client) (command : String) (limit : Option Duration) : Exchange × Client :=
  let r := Inbox.awaitReply c.label c.inbox.ended c.inbox.queue limit
  ({ result := r.result.mapError (failure c.label command limit)
     diagnostics := r.remarks
     took := r.waited
     log := r.log },
   { c with inbox := { c.inbox with queue := r.rest } })

/-- Whether a wait without a limit goes on when all lines that have come are used up. -/
def isBlocked (c : Client) : Bool :=
  (Inbox.awaitReply c.label c.inbox.ended c.inbox.queue none).result matches .error .silent

/-- A client is blocked only where more may come. -/
theorem ended_of_isBlocked {c : Client} (h : c.isBlocked) : c.inbox.ended = false := by
  cases hended : c.inbox.ended with
  | false => rfl
  | true =>
    unfold isBlocked at h
    split at h
    · next hsilent =>
      rw [hended] at hsilent
      exact absurd hsilent (Inbox.awaitReply_result_ne _ none)
    · cases h

/-- The limit of a request: its own or the client's. -/
def limitOf (c : Client) (own : Option Duration) : Option Duration := own.or c.defaultLimit

/-- Sends a command and waits for its reply, where the engine sends nothing but what waits already.
Returns also the bytes that got through. -/
def request (c : Client) (command : String) (own : Option Duration) :
    Exchange × List UInt8 × Client :=
  let s := c.send command
  s.thenAwait s.client (·.await command (c.limitOf own))

end Client

end EngineDuel.Wire

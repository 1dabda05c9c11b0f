import EngineDuel.Wire.Client

/-!
# A client together with its engine

What an engine does is a function of the bytes that reach it, and a `Peer` is such a function with a
state. A session joins a client with a peer: the bytes of each command go to the peer, and what it
sends back waits for the client.
-/

namespace EngineDuel.Wire

/-- What an engine did with some input. -/
structure Arrival where
  lines : List Incoming := []
  /-- Whether its output has ended. -/
  ended : Bool := false
  /-- The time that passed before its first line. -/
  took : Duration := .zero

/-- An engine behind a pipe, with states in `σ`. -/
structure Peer (σ : Type) where
  /-- Bytes reach the engine. -/
  hear : σ → List UInt8 → Arrival × σ

/-- A client with its engine. -/
structure Session (σ : Type) where
  client : Client
  peer : σ
  deriving Repr

namespace Session

variable {σ : Type}

/-- The client after something arrived. -/
def deliver (a : Arrival) (c : Client) : Client :=
  let c := c.receive a.lines
  if a.ended then c.endOutput else c

/-- Sends a command, lets the engine act on it, and waits for the reply. -/
def request (p : Peer σ) (s : Session σ) (command : String) (own : Option Duration) :
    Exchange × Session σ :=
  let sending := s.client.send command
  let (arrival, peer) := p.hear s.peer sending.delivered
  let client := deliver arrival sending.client
  match sending.result with
  | .error e => ({ result := .error e, took := arrival.took, log := sending.log }, ⟨client, peer⟩)
  | .ok () =>
    let (exchange, client) := client.await command (s.client.limitOf own)
    ({ exchange with
        took := arrival.took + exchange.took
        log := sending.log ++ exchange.log },
     ⟨client, peer⟩)

/-- Closes the way to the engine. -/
def close (p : Peer σ) (s : Session σ) : Session σ :=
  let (delivered, client) := s.client.close
  let (arrival, peer) := p.hear s.peer delivered
  ⟨deliver arrival client, peer⟩

/-- Sessions as engines of a game. -/
def engine (p : Peer σ) : Engine (Session σ) where
  label s := s.client.label
  request := request p
  terminate := close p
  isTerminated s := s.client.isClosed

end Session

/-- An engine that does not react: everything that it sends waits from the start. -/
def deaf : Peer Unit where
  hear _ _ := ({}, ())

end EngineDuel.Wire

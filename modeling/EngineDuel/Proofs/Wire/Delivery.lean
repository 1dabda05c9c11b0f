import EngineDuel.Proofs.Game.Parts
import EngineDuel.Proofs.Text.Lines
import EngineDuel.Wire.Session

/-!
# What reaches an engine

On a way that takes everything and holds nothing back (`Pipe.Free`), a command reaches the engine at
once, as its text and a line feed (`Pipe.sendLine_free`), and the way is as before. So while a client
is `Open`, the engine hears the commands that it is sent, one after another, and nothing else
(`Session.heard_eq`).

An engine ends its lines at the line feeds that it hears. It reads one line for each command, and one
more for each line feed inside a command (`length_byteLines_flatMap`).
-/

namespace EngineDuel.Wire

/-! ## A way that takes everything -/

/-- A way that takes everything and holds nothing back. -/
structure Pipe.Free (p : Pipe) : Prop where
  room_eq : p.room = none
  held_eq : p.held = []

/-- The bytes of a line on its way. -/
def lineBytes (line : String) : List UInt8 := Text.encode line ++ [Text.lineFeed]

namespace Pipe

variable {p : Pipe}

theorem flush_of_unbounded (h : p.room = none) : p.flush = ⟨p.held, true, { p with held := [] }⟩ := by
  obtain ⟨room, held, fault⟩ := p
  subst h
  simp [flush, taken, afterTaking]

theorem Free.put (h : p.Free) (bytes : List UInt8) :
    p.put bytes = if bytes.length < capacity then ⟨[], true, { p with held := bytes }⟩
      else ⟨bytes, true, p⟩ := by
  obtain ⟨room, held, fault⟩ := p
  obtain ⟨rfl, rfl⟩ := h
  have hflush : Pipe.flush ⟨none, [], fault⟩ = ⟨[], true, ⟨none, [], fault⟩⟩ :=
    flush_of_unbounded rfl
  by_cases hfits : bytes.length ≤ capacity <;>
    simp [Pipe.put, hfits, hflush, Transfer.andThen, offer, taken, afterTaking]

/-- A line gets through as a whole, with its line feed, and nothing of it stays behind. -/
theorem sendLine_free (h : p.Free) (line : String) :
    p.sendLine line = ⟨lineBytes line, true, p⟩ := by
  have hone : [Text.lineFeed].length < capacity := by decide
  unfold sendLine
  rw [h.put]
  by_cases hshort : (Text.encode line).length < capacity
  · -- the text is held back until its line feed is there
    have hheld : Pipe.put { p with held := Text.encode line } [Text.lineFeed] =
        ⟨[], true, { p with held := Text.encode line ++ [Text.lineFeed] }⟩ := by
      have hfits : (Text.encode line).length + [Text.lineFeed].length ≤ capacity := hshort
      simp only [Pipe.put, if_pos hfits, if_pos hone]
    obtain ⟨room, held, fault⟩ := p
    obtain ⟨rfl, rfl⟩ := h
    simp only [if_pos hshort, Transfer.andThen, if_true, hheld, flush_of_unbounded,
      List.nil_append, lineBytes]
  · -- the text is too long for the store, and only the line feed is held back
    simp only [if_neg hshort, Transfer.andThen, if_true, h.put, if_pos hone]
    obtain ⟨room, held, fault⟩ := p
    obtain ⟨rfl, rfl⟩ := h
    simp only [flush_of_unbounded, List.append_nil, lineBytes]

end Pipe

/-! ## A client with such a way -/

/-- A client that is not closed, with a free way to its engine. -/
def Client.Open (c : Client) : Prop := ∃ pipe, c.pipe = some pipe ∧ pipe.Free

namespace Client

variable {c : Client}

theorem send_open (h : c.Open) (line : String) :
    c.send line =
      { result := .ok ()
        delivered := lineBytes line
        log := [⟨.debug, c.label ++ " <- " ++ line⟩]
        client := c } := by
  obtain ⟨pipe, hpipe, hfree⟩ := h
  obtain ⟨label, limit, way, inbox⟩ := c
  subst hpipe
  simp only [send, Pipe.sendLine_free hfree, if_true]

theorem close_open (h : c.Open) : c.close = ([], { c with pipe := none }) := by
  obtain ⟨pipe, hpipe, hroom, hheld⟩ := h
  simp only [close, hpipe, Pipe.flush_of_unbounded hroom, hheld]

end Client

namespace Session

variable {σ : Type} {p : Peer σ} {s : Session σ}

theorem pipe_deliver (a : Arrival) (c : Client) : (deliver a c).pipe = c.pipe := by
  unfold deliver
  by_cases h : a.ended = true
  · simp only [if_pos h]
    rfl
  · simp only [if_neg h]
    rfl

/-- A request on a free way: the engine acts on the command, and then its reply is waited for. -/
theorem request_open (h : s.client.Open) (command : String) (own : Option Duration) :
    request p s command own =
      let (arrival, peer) := p.hear s.peer (lineBytes command)
      let (exchange, client) :=
        (deliver arrival s.client).await command (s.client.limitOf own)
      ({ exchange with
          took := arrival.took + exchange.took
          log := ⟨.debug, s.client.label ++ " <- " ++ command⟩ :: exchange.log },
        ⟨client, peer⟩) := by
  unfold request
  rw [Client.send_open h]
  rfl

theorem pipe_request (h : s.client.Open) (command : String) (own : Option Duration) :
    (request p s command own).2.client.pipe = s.client.pipe := by
  rw [request_open h]
  exact pipe_deliver _ _

/-- The way stays free. -/
theorem open_request (h : s.client.Open) (command : String) (own : Option Duration) :
    (request p s command own).2.client.Open := by
  unfold Client.Open
  rw [pipe_request h]
  exact h

theorem isClosed_close (s : Session σ) : (close p s).client.isClosed = true := by
  unfold close Client.close
  cases hpipe : s.client.pipe <;> simp [Client.isClosed, pipe_deliver, hpipe]

/-- Sessions report truthfully whether they were closed. -/
theorem candid (h : s.client.Open) : (engine p).Candid s := by
  refine Engine.candid_of ?_ isClosed_close ?_
  · intro s command limit
    show (request p s command limit).2.client.isClosed = s.client.isClosed
    unfold request Client.send
    cases hpipe : s.client.pipe with
    | none => simp [Client.isClosed, pipe_deliver, hpipe]
    | some pipe =>
      by_cases hok : (pipe.sendLine command).ok = true
      · simp [Client.isClosed, Client.await, pipe_deliver, hpipe, hok]
      · simp [Client.isClosed, pipe_deliver, hpipe, hok]
  · obtain ⟨pipe, hpipe, -⟩ := h
    show s.client.isClosed = false
    simp [Client.isClosed, hpipe]

/-! ## What the engine hears -/

/-- The bytes that one call sends to the engine. -/
def sent (s : Session σ) : Call → List UInt8
  | .request command _ => (s.client.send command).delivered
  | .terminate => s.client.close.1

/-- The bytes that several calls send to the engine. -/
def heard (p : Peer σ) : Session σ → List Call → List UInt8
  | _, [] => []
  | s, call :: calls => s.sent call ++ heard p ((engine p).afterCall s call) calls

/-- The commands of some calls. -/
def commands (calls : List Call) : List String :=
  calls.filterMap fun
    | .request command _ => some command
    | .terminate => none

/-- **An engine hears its commands**, each as its text and a line feed, and nothing else. -/
theorem heard_eq {calls : List Call} (h : s.client.Open)
    (hlast : calls.Pairwise fun call _ => call ≠ .terminate) :
    heard p s calls = (commands calls).flatMap lineBytes := by
  induction calls generalizing s with
  | nil => rfl
  | cons call calls ih =>
    obtain ⟨hcall, hcalls⟩ := List.pairwise_cons.mp hlast
    cases call with
    | request command limit =>
      have hsent : s.sent (.request command limit) = lineBytes command := by
        show (s.client.send command).delivered = lineBytes command
        rw [Client.send_open h]
      have hrest : heard p ((engine p).afterCall s (.request command limit)) calls =
          (commands calls).flatMap lineBytes :=
        ih (open_request h command limit) hcalls
      unfold heard
      rw [hsent, hrest]
      rfl
    | terminate =>
      -- nothing follows
      cases calls with
      | nil =>
        unfold heard sent
        rw [Client.close_open h]
        rfl
      | cons call calls => exact absurd rfl (hcall call List.mem_cons_self)

end Session

/-! ## The lines that the engine reads -/

theorem lineBytes_eq (line : String) :
    lineBytes line = (line.toList ++ ['\n']).flatMap String.utf8EncodeChar := by
  unfold lineBytes
  rw [Text.encode_eq, List.flatMap_append]
  rfl

theorem length_splitAt (s : List Char) :
    (Text.splitAt (· == '\n') s).length = s.count '\n' + 1 := by
  induction s with
  | nil => rfl
  | cons c rest ih =>
    unfold Text.splitAt
    by_cases hc : c = '\n'
    · subst hc
      simp [ih]
    · obtain ⟨piece, pieces, heq⟩ := List.exists_cons_of_ne_nil (Text.splitAt_ne_nil (· == '\n') rest)
      rw [heq] at ih
      have hcount : (c :: rest).count '\n' = rest.count '\n' := by simp [hc]
      simp [hc, heq, hcount, ← ih]

/-- Commands are read as the pieces between their line feeds. -/
theorem charLines_flatMap (lines : List String) :
    Text.charLines (lines.flatMap fun line => line.toList ++ ['\n']) =
      lines.flatMap fun line => (Text.splitAt (· == '\n') line.toList).map Text.withoutReturn := by
  induction lines with
  | nil => rfl
  | cons line lines ih =>
    rw [List.flatMap_cons, List.flatMap_cons, List.append_assoc, List.singleton_append,
      Text.charLines_append, ih]

/-- One line is read for each command, and one more for each line feed in it. -/
theorem length_byteLines_flatMap (lines : List String) :
    (Text.byteLines (lines.flatMap lineBytes)).length =
      lines.length + (lines.flatMap String.toList).count '\n' := by
  have hbytes : lines.flatMap lineBytes =
      (lines.flatMap fun line => line.toList ++ ['\n']).flatMap String.utf8EncodeChar := by
    rw [List.flatMap_assoc]
    congr 1
    funext line
    exact lineBytes_eq line
  rw [hbytes, Text.byteLines_flatMap, List.length_map, charLines_flatMap]
  clear hbytes
  induction lines with
  | nil => rfl
  | cons line lines ih =>
    rw [List.flatMap_cons, List.flatMap_cons, List.length_append, List.length_map, length_splitAt, ih,
      List.count_append, List.length_cons]
    omega

end EngineDuel.Wire

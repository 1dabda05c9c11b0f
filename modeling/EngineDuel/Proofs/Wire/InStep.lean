import EngineDuel.Proofs.Wire.Segments
import EngineDuel.Wire.Client

/-!
# A client in step with its engine

If an engine answers with one segment for each command, the client reads one segment for each
command: the replies never slip, whatever the lines between them look like, and whether or not an
earlier command was refused (`requests_in_step`).

1. A way to the engine that takes a list of commands takes them one by one (`Pipe.Carries`); one
   without a bound on its room takes any (`Pipe.carries_of_unbounded`).
2. A client is `Ready` if its way takes the commands that are left and its queue is as it should be.
   One request takes one segment, and the client is ready for the rest (`Client.request_segment`).
3. So it is after any number of requests (`Client.ready_after`).
-/

namespace EngineDuel.Wire

/-! ## Writing -/

namespace Pipe

/-- Each line of a list in turn gets through. -/
def Carries : Pipe → List String → Prop
  | _, [] => True
  | p, line :: lines => (p.sendLine line).ok = true ∧ (p.sendLine line).pipe.Carries lines

end Pipe

/-- Everything got through, and there is still no bound on the room. -/
def Transfer.IsWhole (t : Transfer) : Prop := t.ok = true ∧ t.pipe.room = none

theorem Transfer.IsWhole.andThen {t : Transfer} (h : t.IsWhole) {next : Pipe → Transfer}
    (hnext : ∀ p : Pipe, p.room = none → (next p).IsWhole) : (t.andThen next).IsWhole := by
  unfold Transfer.andThen
  rw [if_pos h.1]
  exact hnext t.pipe h.2

namespace Pipe

variable {p : Pipe}

theorem isWhole_offer (h : p.room = none) (bytes : List UInt8) : (p.offer bytes).IsWhole := by
  simp [Transfer.IsWhole, offer, taken, afterTaking, h]

theorem isWhole_flush (h : p.room = none) : p.flush.IsWhole := by
  simp [Transfer.IsWhole, flush, taken, afterTaking, h]

theorem isWhole_put (h : p.room = none) (bytes : List UInt8) : (p.put bytes).IsWhole := by
  have hkeep (q : Pipe) (hq : q.room = none) : Transfer.IsWhole
      (if bytes.length < capacity then ⟨[], true, { q with held := q.held ++ bytes }⟩
      else q.offer bytes) := by
    split
    · exact ⟨rfl, hq⟩
    · exact isWhole_offer hq bytes
  by_cases hfits : p.held.length + bytes.length ≤ capacity
  · simpa only [put, if_pos hfits] using hkeep p h
  · simpa only [put, if_neg hfits] using (isWhole_flush h).andThen hkeep

theorem isWhole_sendLine (h : p.room = none) (line : String) : (p.sendLine line).IsWhole :=
  ((isWhole_put h _).andThen fun _ hq => isWhole_put hq _).andThen fun _ hq => isWhole_flush hq

/-- Without a bound on its room, a way to an engine takes any lines. -/
theorem carries_of_unbounded (h : p.room = none) (lines : List String) : p.Carries lines := by
  induction lines generalizing p with
  | nil => trivial
  | cons line lines ih =>
    have hsent := isWhole_sendLine h line
    exact ⟨hsent.1, ih hsent.2⟩

end Pipe

/-! ## Asking -/

/-- A command and the limit of its own that it is sent with. -/
structure Query where
  command : String
  limit : Option Duration

namespace Sending

variable {σ : Type} {s : Sending}

theorem thenAwait_error {e : LinkError} (h : s.result = .error e) (state : σ)
    (await : σ → Exchange × σ) :
    s.thenAwait state await = ({ result := .error e, log := s.log }, s.delivered, state) := by
  simp only [thenAwait, h]

theorem thenAwait_ok (h : s.result = .ok ()) (state : σ) (await : σ → Exchange × σ) :
    s.thenAwait state await =
      ({ (await state).1 with log := s.log ++ (await state).1.log }, s.delivered,
        (await state).2) := by
  simp only [thenAwait, h]

end Sending

namespace Client

/-- The client after it has sent commands and waited for their replies. -/
def after (c : Client) : List Query → Client
  | [] => c
  | q :: queries => (c.request q.command q.limit).2.2.after queries

/-- A client whose way to the engine takes these commands, and with this queue. -/
structure Ready (c : Client) (label : String) (commands : List String) (queue : List Incoming) :
    Prop where
  label_eq : c.label = label
  carries : ∃ pipe, c.pipe = some pipe ∧ pipe.Carries commands
  queue_eq : c.inbox.queue = queue

variable {c : Client} {label : String}

/-- A request that could not be sent. -/
theorem request_of_error {command : String} {e : LinkError}
    (h : (c.send command).result = .error e) (own : Option Duration) :
    c.request command own =
      ({ result := .error e, log := (c.send command).log }, (c.send command).delivered,
        (c.send command).client) := by
  rw [request, Sending.thenAwait_error h]

/-- A request that was sent. -/
theorem request_of_ok {command : String} (h : (c.send command).result = .ok ())
    (own : Option Duration) :
    c.request command own =
      let reply := (c.send command).client.await command (c.limitOf own)
      ({ reply.1 with log := (c.send command).log ++ reply.1.log }, (c.send command).delivered,
        reply.2) := by
  rw [request, Sending.thenAwait_ok h]

/-- The next command is sent, and the client is ready for those after it. -/
theorem Ready.send {command : String} {commands : List String} {queue : List Incoming}
    (h : c.Ready label (command :: commands) queue) :
    (c.send command).result = .ok () ∧ (c.send command).client.Ready label commands queue ∧
      (c.send command).client.inbox = c.inbox ∧
      (c.send command).client.defaultLimit = c.defaultLimit := by
  obtain ⟨rfl, ⟨pipe, hpipe, hok, hcarries⟩, rfl⟩ := h
  simp only [Client.send, hpipe, hok, if_true]
  exact ⟨trivial, ⟨rfl, ⟨_, rfl, hcarries⟩, rfl⟩, trivial, trivial⟩

/-- **One request takes one segment**, and the client is ready for the requests that are left. -/
theorem request_segment {command : String} {commands : List String} {s : Segment}
    {queue : List Incoming} (h : c.Ready label (command :: commands) (s.lines ++ queue))
    (own : Option Duration) :
    (c.request command own).1.result = s.said.mapError (.rejected label command) ∧
      (c.request command own).1.diagnostics = s.remarks ∧
      (c.request command own).2.2.Ready label commands queue := by
  obtain ⟨hsent, ⟨hlabel, hcarries, hqueue⟩, -, -⟩ := h.send
  have hread := Inbox.awaitReply_segment (c.send command).client.label
    (c.send command).client.inbox.ended (c.limitOf own) s queue
  have hsaid : (s.said.mapError Missing.refused).mapError
      (failure (c.send command).client.label command (c.limitOf own)) =
        s.said.mapError (.rejected label command) := by
    rw [hlabel]
    cases s.said <;> rfl
  rw [← hqueue] at hread
  rw [request_of_ok hsent]
  simp only [await]
  refine ⟨?_, hread.remarks_eq, hlabel, hcarries, hread.rest_eq⟩
  rw [hread.result_eq, hsaid]

/-- After as many requests as there were segments before, the client is ready for the others. -/
theorem ready_after {segments : List Segment} {queries : List Query} {rest : List Incoming}
    (hlen : queries.length = segments.length)
    (h : c.Ready label (queries.map Query.command) (segments.flatMap Segment.lines ++ rest))
    (i : ℕ) :
    (c.after (queries.take i)).Ready label ((queries.drop i).map Query.command)
      ((segments.drop i).flatMap Segment.lines ++ rest) := by
  induction i generalizing c segments queries with
  | zero => exact h
  | succ i ih =>
    obtain _ | ⟨q, queries⟩ := queries
    · obtain rfl : segments = [] := List.length_eq_zero_iff.mp hlen.symm
      exact h
    obtain _ | ⟨s, segments⟩ := segments
    · cases hlen
    rw [List.map_cons, List.flatMap_cons, List.append_assoc] at h
    have hstep := request_segment h q.limit
    exact ih (Nat.succ.inj hlen) hstep.2.2

end Client

/-- **A client never loses step with its engine.** Let the queue consist of segments, and whatever
comes after them, and let as many commands be sent on a way that takes them. Then each request
brings what the terminal unit of its own segment stands for, shows the remarks of its own segment
and no others, and leaves the segments after its own as they are. -/
theorem requests_in_step (c : Client) (pipe : Pipe) (segments : List Segment) (queries : List Query)
    (rest : List Incoming) (hlen : queries.length = segments.length) (hpipe : c.pipe = some pipe)
    (hcarries : pipe.Carries (queries.map Query.command))
    (hqueue : c.inbox.queue = segments.flatMap Segment.lines ++ rest)
    (i : ℕ) (hi : i < segments.length) :
    let (exchange, _, c') :=
      (c.after (queries.take i)).request queries[i].command queries[i].limit
    exchange.result = segments[i].said.mapError (.rejected c.label queries[i].command) ∧
      exchange.diagnostics = segments[i].remarks ∧
      c'.inbox.queue = (segments.drop (i + 1)).flatMap Segment.lines ++ rest := by
  have hready := Client.ready_after hlen ⟨rfl, ⟨pipe, hpipe, hcarries⟩, hqueue⟩ i
  rw [List.drop_eq_getElem_cons hi, List.drop_eq_getElem_cons (hlen ▸ hi), List.map_cons,
    List.flatMap_cons, List.append_assoc] at hready
  obtain ⟨hresult, hremarks, hafter⟩ := Client.request_segment hready queries[i].limit
  exact ⟨hresult, hremarks, hafter.queue_eq⟩

/-- A refusal, noise that looks like a reply, and a stream that contains one. -/
theorem requests_in_step_after_refusal :
    let c : Client :=
      { label := "engine"
        pipe := some { fault := "" }
        inbox :=
          { queue := [.errorLine "=h8", .line " info ", .line "? illegal move", .line "",
              .line "= \x02", .line "=h8", .errorLine "?", .line "\x03", .line "=h9"]
            ended := true } }
    let (exchange, _, c') := (c.after [⟨"play z99", none⟩]).request "board" none
    exchange.result = .ok (some "=h8") ∧ exchange.diagnostics = [] ∧
      c'.inbox.queue = [.line "=h9"] := by
  let refused : Segment :=
    { noise := [.errorLine "=h8", .line " info "]
      unit := [.line "? illegal move"]
      said := .error "illegal move"
      isNoise := by decide
      terminal := @Terminal.refusal _ " illegal move".toList (by decide) }
  let shown : Segment :=
    { noise := [.line ""]
      unit := [.line "= \x02", .line "=h8", .errorLine "?", .line "\x03"]
      said := .ok (some "=h8")
      isNoise := by decide
      terminal := @Terminal.stream _ _ [] [] [] [.line "=h8", .errorLine "?"] (.inr (by decide))
        (by decide) (by decide) (by decide) (by decide) }
  exact requests_in_step _ { fault := "" } [refused, shown] [⟨"play z99", none⟩, ⟨"board", none⟩]
    [.line "=h9"] rfl rfl (Pipe.carries_of_unbounded rfl _) rfl 1 (by decide)

end EngineDuel.Wire

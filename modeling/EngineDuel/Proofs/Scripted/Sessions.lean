import EngineDuel.Proofs.Scripted.Replies
import EngineDuel.Proofs.Wire.Delivery

/-!
# Conversations with scripted engines

Between two requests a client and its scripted engine are idle (`Idle`): nothing waits on either
side. A request then brings what the engine tells, and they are idle again (`Idle.request`). In a
game they are in step (`InStep`), which is to be idle after so many moves (`InStep.request`). Only a
`gen` is waited for in vain, if the engine does not react to it or thinks for longer than the client
waits (`InStep.request_timeout`).

An engine may think before its client begins to wait or while it waits (`Pace`). Its clock is charged
either way, but only in the second case it can be too late.
-/

namespace EngineDuel.Scripted

open EngineDuel.Wire

/-! ## Hearing a line -/

/-- A command without marks of line ends. -/
def IsLine (command : String) : Prop := '\n' ∉ command.toList ∧ '\r' ∉ command.toList

namespace Talker

variable {t : Talker} {command : String}

/-- The engine acts on a command as soon as its line feed has arrived. -/
theorem hear_lineBytes (hpartial : t.partialLine = []) (h : IsLine command) :
    t.hear (lineBytes command) =
      let (arrival, t') := t.hearLine (Text.encode command)
      ({ arrival with lines := arrival.lines ++ [], ended := arrival.ended || false,
                      took := arrival.took + .zero }, { t' with partialLine := [] }) := by
  have hpieces : Text.splitAt (· == Text.lineFeed) (lineBytes command) = [Text.encode command, []] := by
    have hsplit : Text.splitAt (· == '\n') (command.toList ++ '\n' :: []) =
        Text.splitAt (· == '\n') command.toList ++ [[]] :=
      Text.splitAt_append_cons _ _ (by decide)
    rw [lineBytes_eq, Text.splitAt_lineFeed, hsplit, Text.splitAt_of_not_mem h.1, Text.encode_eq]
    rfl
  unfold hear
  rw [hpartial, List.nil_append, hpieces]
  rfl

/-- The command is read as it was sent. -/
theorem hearLine_encode (hrun : t.stopped = false) (h : IsLine command) :
    t.hearLine (Text.encode command) =
      let (reaction, state) := onLine t.options t.state command.toList
      let t := { t with state }
      match reaction with
      | .lines think ls => ({ lines := ls.map (.line ∘ String.ofList), took := think }, t)
      | .stall => ({}, { t with stopped := true })
      | .quit => ({ ended := true }, { t with stopped := true }) := by
  have hreturn : Text.withoutReturn command.toList = command.toList :=
    if_neg fun hlast => h.2 (List.mem_of_getLast? hlast)
  have hdecode : Text.decode? (Text.dropReturn (Text.encode command)) = some command := by
    rw [Text.encode_eq, Text.dropReturn_flatMap, hreturn, ← Text.encode_eq, Text.decode?_encode]
  unfold hearLine
  rw [hrun, hdecode]
  rfl

end Talker

/-! ## When an engine thinks -/

/-- When an engine thinks about a command. Nothing else takes time, and whoever has thought for exactly
as long as its client waits is in time. -/
inductive Pace where
  /-- Before its client begins to wait. -/
  | ahead
  /-- While its client waits. -/
  | awaited
  deriving DecidableEq, Repr

namespace Pace

/-- Scripted engines that think at that time. -/
def peer : Pace → Peer Talker
  | .ahead => Scripted.peer
  | .awaited => {
      hear := fun t bytes =>
        let (arrival, t) := t.hear bytes
        ({ arrival with lines := .pause arrival.took :: arrival.lines, took := .zero }, t) }

/-- What the client reads first if the engine thinks for so long. -/
def pauses (pace : Pace) (think : Duration) : List Incoming :=
  match pace with
  | .ahead => []
  | .awaited => [.pause think]

/-- Whether an engine that thinks for so long is too late for a limit. -/
def late (pace : Pace) (think limit : Duration) : Bool :=
  match pace with
  | .ahead => false
  | .awaited => limit.nanos < think.nanos

variable {pace : Pace}

theorem late_zero (limit : Duration) : pace.late .zero limit = false := by
  cases pace with
  | ahead => rfl
  | awaited => exact decide_eq_false (Nat.not_lt_zero limit.nanos)

/-- At either pace the engine does the same. -/
theorem hear_peer {t t' : Talker} {bytes : List UInt8} {lines : List Incoming} {think : Duration}
    (h : t.hear bytes = ({ lines, took := think }, t')) :
    ∃ took, pace.peer.hear t bytes = ({ lines := pace.pauses think ++ lines, took }, t') := by
  cases pace with
  | ahead => exact ⟨think, h⟩
  | awaited =>
    refine ⟨.zero, ?_⟩
    simp only [peer, h]
    rfl

/-- An engine that is in time is waited for. -/
theorem awaitReply_pauses {think : Duration} {limit : Option Duration}
    (h : ∀ l, limit = some l → pace.late think l = false) (label : String) (ended : Bool)
    (lines : List Incoming) :
    ∃ left, left.isSome = limit.isSome ∧
      ∀ {result remarks rest}, (Inbox.awaitReply label ended lines left).Brings result remarks rest →
        (Inbox.awaitReply label ended (pace.pauses think ++ lines) limit).Brings result remarks
          rest := by
  cases pace with
  | ahead => exact ⟨limit, rfl, id⟩
  | awaited =>
    have hleft : ∃ left, left.isSome = limit.isSome ∧ Inbox.afterPause limit think = some left := by
      cases limit with
      | none => exact ⟨none, rfl, rfl⟩
      | some l =>
        exact ⟨some ⟨l.nanos - think.nanos⟩, rfl, if_neg (of_decide_eq_false (h l rfl))⟩
    obtain ⟨left, hsome, hleft⟩ := hleft
    refine ⟨left, hsome, ?_⟩
    simp only [pauses, List.cons_append, List.nil_append, Inbox.awaitReply, hleft]
    exact fun h => ⟨h.result_eq, h.remarks_eq, h.rest_eq⟩

/-- An engine that is late is given up. -/
theorem awaitReply_late {think limit : Duration} (h : pace.late think limit = true)
    (label : String) (ended : Bool) (lines : List Incoming) :
    (Inbox.awaitReply label ended (pace.pauses think ++ lines) (some limit)).result =
      .error .late := by
  cases pace with
  | ahead => cases h
  | awaited =>
    have hnone : Inbox.afterPause (some limit) think = none := if_pos (of_decide_eq_true h)
    simp only [pauses, List.cons_append, Inbox.awaitReply, hnone]
    rfl

end Pace

/-! ## Requests -/

/-- A client and a scripted engine between two requests, with nothing that waits on either side. -/
structure Idle (o : Options) (label : String) (s : Session Talker) : Prop where
  label_eq : s.client.label = label
  isOpen : s.client.Open
  queue_eq : s.client.inbox.queue = []
  ended_eq : s.client.inbox.ended = false
  options_eq : s.peer.options = o
  partialLine_eq : s.peer.partialLine = []
  running : s.peer.stopped = false

theorem idle_session (label : String) (limit : Option Duration) (o : Options) :
    Idle o label (session label limit o) where
  label_eq := rfl
  isOpen := ⟨_, rfl, rfl, rfl⟩
  queue_eq := rfl
  ended_eq := rfl
  options_eq := rfl
  partialLine_eq := rfl
  running := rfl

section Idle

variable {o : Options} {label command : String} {s : Session Talker}

/-- A request comes to what is read. -/
theorem Idle.request_reading {p : Peer Talker} (h : Idle o label s) {lines : List Incoming}
    {took : Duration} {t : Talker} (own : Option Duration)
    (hhear : p.hear s.peer (lineBytes command) = ({ lines, took }, t))
    {result : Except Missing (Option String)} {remarks : List String} {rest : List Incoming}
    (hread : (Inbox.awaitReply label false lines (s.client.limitOf own)).Brings result remarks
      rest) :
    (Session.request p s command own).1.result =
        result.mapError (Client.failure label command (s.client.limitOf own)) ∧
      (Session.request p s command own).1.diagnostics = remarks ∧
      (Session.request p s command own).2 =
        ⟨{ s.client with inbox := { queue := rest, ended := false } }, t⟩ := by
  have hdeliver : Session.deliver { lines, took } s.client =
      { s.client with inbox := { s.client.inbox with queue := lines } } := by
    simp [Session.deliver, Client.receive, h.queue_eq]
  rw [Session.request_open h.isOpen]
  simp only [hhear, hdeliver, Client.await, h.label_eq, h.ended_eq, hread.result_eq,
    hread.remarks_eq, hread.rest_eq, and_self]

/-- What the engine does on a command that it writes lines to. -/
theorem Idle.hear (h : Idle o label s) {think : Duration} {lines : List (List Char)} {s' : State}
    (hon : onLine o s.peer.state command.toList = (.lines think lines, s'))
    (hline : IsLine command) :
    s.peer.hear (lineBytes command) =
      ({ lines := lines.map (.line ∘ String.ofList), took := think },
        { s.peer with state := s' }) := by
  rw [← h.options_eq] at hon
  rw [Talker.hear_lineBytes h.partialLine_eq hline, Talker.hearLine_encode h.running hline, hon]
  simp [h.partialLine_eq]
  rfl

variable {pace : Pace}

/-- **A request brings what the engine tells**, and then nothing waits. -/
theorem Idle.request (h : Idle o label s) {think : Duration} {lines : List (List Char)} {s' : State}
    {remarks : List String} {said : Except String (Option String)}
    (hon : onLine o s.peer.state command.toList = (.lines think lines, s'))
    (htells : Tells lines remarks said) (hline : IsLine command) {own : Option Duration}
    (htime : ∀ limit, s.client.limitOf own = some limit → pace.late think limit = false) :
    (Session.request pace.peer s command own).1.result =
        said.mapError (.rejected label command) ∧
      (Session.request pace.peer s command own).1.diagnostics = remarks ∧
      (Session.request pace.peer s command own).2.client.defaultLimit = s.client.defaultLimit ∧
      (Session.request pace.peer s command own).2.peer.state = s' ∧
      Idle o label (Session.request pace.peer s command own).2 := by
  obtain ⟨segment, hsegment, hremarks, hsaid⟩ := htells
  obtain ⟨took, hhear⟩ := pace.hear_peer (h.hear hon hline)
  obtain ⟨left, -, hpauses⟩ := pace.awaitReply_pauses htime label false
    (lines.map (.line ∘ String.ofList))
  have hread := Inbox.awaitReply_segment label false left segment []
  rw [List.append_nil, hsegment, hremarks, hsaid] at hread
  obtain ⟨hresult, hdiagnostics, hleft⟩ := h.request_reading own hhear (hpauses hread)
  rw [hleft]
  refine ⟨hresult.trans ?_, hdiagnostics, rfl, rfl, ?_⟩
  · cases said <;> rfl
  · exact {
      label_eq := h.label_eq
      isOpen := h.isOpen
      queue_eq := rfl
      ended_eq := rfl
      options_eq := h.options_eq
      partialLine_eq := h.partialLine_eq
      running := h.running }

end Idle

/-- A client and a scripted engine between two requests, after `n` moves. -/
structure InStep (o : Options) (label : String) (n : ℕ) (s : Session Talker) : Prop where
  label_eq : s.client.label = label
  isOpen : s.client.Open
  queue_eq : s.client.inbox.queue = []
  ended_eq : s.client.inbox.ended = false
  options_eq : s.peer.options = o
  partialLine_eq : s.peer.partialLine = []
  running : s.peer.stopped = false
  moves_eq : s.peer.state.moves = placed n

section InStep

variable {o : Options} {label command : String} {n m : ℕ} {s : Session Talker}

theorem InStep.idle (h : InStep o label n s) : Idle o label s :=
  ⟨h.label_eq, h.isOpen, h.queue_eq, h.ended_eq, h.options_eq, h.partialLine_eq, h.running⟩

theorem Idle.inStep (h : Idle o label s) (hmoves : s.peer.state.moves = placed n) :
    InStep o label n s :=
  ⟨h.label_eq, h.isOpen, h.queue_eq, h.ended_eq, h.options_eq, h.partialLine_eq, h.running, hmoves⟩

/-- A new engine has seen no move. -/
theorem inStep_session (label : String) (limit : Option Duration) (o : Options) :
    InStep o label 0 (session label limit o) :=
  (idle_session label limit o).inStep rfl

variable {pace : Pace}

/-- **A request brings what the engine says to it.** -/
theorem InStep.request (h : InStep o label n s) {think : Duration} {said : Option String}
    {s' : State} (hreacts : Reacts o s.peer.state command think said s')
    (hmoves : s'.moves = placed m) (hline : IsLine command) {own : Option Duration}
    (htime : ∀ limit, s.client.limitOf own = some limit → pace.late think limit = false) :
    (Session.request pace.peer s command own).1.result = .ok said ∧
      InStep o label m (Session.request pace.peer s command own).2 := by
  obtain ⟨lines, hon, segment, hsegment, hsaid⟩ := hreacts
  obtain ⟨hresult, -, -, hstate, hidle⟩ :=
    h.idle.request hon ⟨segment, hsegment, rfl, hsaid⟩ hline htime
  exact ⟨hresult, hidle.inStep (by rw [hstate, hmoves])⟩

/-- A `gen` that the engine does not answer in time is waited for until its limit is over. -/
theorem InStep.request_timeout (h : InStep o label n s) (ho : o.Plain) {limit : Duration}
    (hslow : o.stallAt = some n ∨ pace.late (thinking o n) limit = true) :
    (Session.request pace.peer s "gen" (some limit)).1.result =
      .error (.timeout label "gen" limit) := by
  have hlength : s.peer.state.moves.length = n := by rw [h.moves_eq, length_placed]
  have hline : IsLine "gen" := by
    unfold IsLine
    decide
  by_cases hstall : o.stallAt = some n
  · have hon : onLine s.peer.options s.peer.state "gen".toList = (.stall, s.peer.state) := by
      rw [h.options_eq, onLine_gen ho]
      unfold onGen
      dsimp only
      rw [hlength, if_pos hstall]
    have hhear : s.peer.hear (lineBytes "gen") =
        ({ lines := [], took := .zero }, { s.peer with stopped := true }) := by
      rw [Talker.hear_lineBytes h.partialLine_eq hline, Talker.hearLine_encode h.running hline, hon]
      simp [← h.partialLine_eq]
      rfl
    obtain ⟨took, hhear⟩ := pace.hear_peer hhear
    have htime : ∀ l, some limit = some l → pace.late .zero l = false :=
      fun l _ => pace.late_zero l
    obtain ⟨left, hsome, hpauses⟩ := pace.awaitReply_pauses htime label false []
    obtain ⟨l, rfl⟩ := Option.isSome_iff_exists.mp hsome
    exact (h.idle.request_reading (some limit) hhear (hpauses ⟨rfl, rfl, rfl⟩)).1
  · have hlate := hslow.resolve_left hstall
    have hgen : Reacts o s.peer.state "gen" (thinking o n) (some (ownMove o n)) s.peer.state := by
      have hgen := @reacts_gen o s.peer.state ho (by rwa [hlength])
      rwa [hlength] at hgen
    obtain ⟨lines, hon, -⟩ := hgen
    obtain ⟨took, hhear⟩ := pace.hear_peer (h.idle.hear hon hline)
    exact (h.idle.request_reading (some limit) hhear
      ⟨Pace.awaitReply_late hlate label false _, rfl, rfl⟩).1

end InStep

end EngineDuel.Scripted

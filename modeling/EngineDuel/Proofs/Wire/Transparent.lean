import EngineDuel.Proofs.Wire.InStep

/-!
# What makes no difference to a client

An engine may write to its error output whenever it likes, and it may end its lines with a carriage
return. `requests_alike`: two queues that differ in nothing else (`Alike`) bring the same to any
requests, the log apart, and what they leave differs in nothing else again. The queues need not be
well formed: lines may be missing, come late, or answer nothing.

1. A carriage return at the end of a line is a blank outside of a stream (`SameLine.ofLine_eq`), and
   is left out inside one (`SameLine.streamLine_eq`).
2. So the same is read of both queues, line by line (`Alike.awaitStreamEnd`, `Alike.awaitReply`).
3. The same holds of a request, and of any number of them (`Client.Alike.request`).
-/

namespace EngineDuel

/-- What an exchange shows of a request, the log apart: its result, the remarks before it and the time
that it took. -/
def Exchange.shown (x : Exchange) : Except LinkError (Option String) × List String × Duration :=
  (x.result, x.diagnostics, x.took)

namespace Wire

/-! ## Queues -/

/-- The same line, or with one carriage return at its end. There is none in the line itself. -/
def SameLine (text text' : String) : Prop :=
  '\r' ∉ text.toList ∧ (text' = text ∨ text' = text ++ "\r")

/-- The second queue is the first with lines of the error output put in or left out at any places, and
with one carriage return at the end of any lines of the output. -/
inductive Alike : List Incoming → List Incoming → Prop where
  | nil : Alike [] []
  | line {text text' queue queue'} : SameLine text text' → Alike queue queue' →
      Alike (.line text :: queue) (.line text' :: queue')
  | pause {length queue queue'} : Alike queue queue' →
      Alike (.pause length :: queue) (.pause length :: queue')
  | leftOut {text queue queue'} : Alike queue queue' → Alike (.errorLine text :: queue) queue'
  | putIn {text queue queue'} : Alike queue queue' → Alike queue (.errorLine text :: queue')

namespace SameLine

variable {text text' : String}

theorem toList_eq (h : SameLine text text') :
    text'.toList = text.toList ∨ text'.toList = text.toList ++ ['\r'] := by
  rcases h.2 with rfl | rfl
  · exact .inl rfl
  · exact .inr String.toList_append

/-- The line means the same. -/
theorem ofLine_eq (h : SameLine text text') :
    Reply.ofLine text'.toList = Reply.ofLine text.toList := by
  rcases h.toList_eq with heq | heq
  · rw [heq]
  · unfold Reply.ofLine
    rw [heq, Text.trim_append_blank (by decide)]

/-- The line is the same line of a stream. -/
theorem streamLine_eq (h : SameLine text text') :
    Inbox.streamLine text'.toList = Inbox.streamLine text.toList := by
  have hnone : text.toList.getLast? ≠ some '\r' := fun hlast => h.1 (List.mem_of_getLast? hlast)
  rcases h.toList_eq with heq | heq
  · rw [heq]
  · rw [heq]
    simp [Inbox.streamLine, hnone]

end SameLine

/-! ## Reading -/

/-- Two waits brought the same, the log apart, and what they leave is alike. -/
structure Reading.Agrees (r r' : Reading) : Prop where
  result_eq : r'.result = r.result
  remarks_eq : r'.remarks = r.remarks
  waited_eq : r'.waited = r.waited
  rest : Alike r.rest r'.rest

namespace Reading.Agrees

variable {r r' : Reading}

theorem withLog (h : r.Agrees r') (line line' : LogLine) : (r.withLog line).Agrees (r'.withLog line') :=
  ⟨h.result_eq, h.remarks_eq, h.waited_eq, h.rest⟩

/-- A log line on one side only. -/
theorem withLog_left (h : r.Agrees r') (line : LogLine) : (r.withLog line).Agrees r' :=
  ⟨h.result_eq, h.remarks_eq, h.waited_eq, h.rest⟩

/-- A log line on one side only. -/
theorem withLog_right (h : r.Agrees r') (line : LogLine) : r.Agrees (r'.withLog line) :=
  ⟨h.result_eq, h.remarks_eq, h.waited_eq, h.rest⟩

theorem withRemark (h : r.Agrees r') (text : String) :
    (r.withRemark text).Agrees (r'.withRemark text) :=
  ⟨h.result_eq, congrArg (text :: ·) h.remarks_eq, h.waited_eq, h.rest⟩

theorem withWait (h : r.Agrees r') (d : Duration) : (r.withWait d).Agrees (r'.withWait d) :=
  ⟨h.result_eq, h.remarks_eq, congrArg (d + ·) h.waited_eq, h.rest⟩

end Reading.Agrees

namespace Alike

variable {queue queue' : List Incoming} (label : String) (ended : Bool)

theorem agrees_atEnd (limit : Option Duration) :
    (Inbox.atEnd ended limit).Agrees (Inbox.atEnd ended limit) := by
  refine ⟨rfl, rfl, rfl, ?_⟩
  unfold Inbox.atEnd
  split <;> exact .nil

theorem agrees_tooLate (h : Alike queue queue') (limit : Option Duration) (d : Duration) :
    (Inbox.tooLate limit d queue).Agrees (Inbox.tooLate limit d queue') :=
  ⟨rfl, rfl, rfl, .pause h⟩

/-- Alike queues bring the same end of a stream. -/
theorem awaitStreamEnd (h : Alike queue queue') (limit : Option Duration) (lines : Inbox.Stream) :
    (Inbox.awaitStreamEnd label ended queue limit lines).Agrees
      (Inbox.awaitStreamEnd label ended queue' limit lines) := by
  induction h generalizing limit lines with
  | nil =>
    unfold Inbox.awaitStreamEnd
    exact agrees_atEnd ended limit
  | line hline hrest ih =>
    unfold Inbox.awaitStreamEnd
    rw [hline.streamLine_eq]
    refine Reading.Agrees.withLog ?_ _ _
    cases Inbox.addToStream lines (Inbox.streamLine _) with
    | inr whole => exact ⟨rfl, rfl, rfl, hrest⟩
    | inl lines => exact ih limit lines
  | @pause d _ _ hrest ih =>
    unfold Inbox.awaitStreamEnd
    cases Inbox.afterPause limit d with
    | some left => exact (ih left lines).withWait d
    | none => exact hrest.agrees_tooLate limit d
  | leftOut _ ih => exact (ih limit lines).withLog_left _
  | putIn _ ih => exact (ih limit lines).withLog_right _

/-- Alike queues bring the same reply. -/
theorem awaitReply (h : Alike queue queue') (limit : Option Duration) :
    (Inbox.awaitReply label ended queue limit).Agrees
      (Inbox.awaitReply label ended queue' limit) := by
  induction h generalizing limit with
  | nil =>
    unfold Inbox.awaitReply
    exact agrees_atEnd ended limit
  | line hline hrest ih =>
    unfold Inbox.awaitReply
    rw [hline.ofLine_eq]
    refine Reading.Agrees.withLog ?_ _ _
    cases Reply.ofLine _ with
    | blank => exact ih limit
    | remark text => exact (ih limit).withRemark _
    | done => exact ⟨rfl, rfl, rfl, hrest⟩
    | answer text => exact ⟨rfl, rfl, rfl, hrest⟩
    | refusal message => exact ⟨rfl, rfl, rfl, hrest⟩
    | opening first =>
      dsimp only
      cases Inbox.openStream first with
      | inr whole => exact ⟨rfl, rfl, rfl, hrest⟩
      | inl lines => exact hrest.awaitStreamEnd label ended limit lines
  | @pause d _ _ hrest ih =>
    unfold Inbox.awaitReply
    cases Inbox.afterPause limit d with
    | some left => exact (ih left).withWait d
    | none => exact hrest.agrees_tooLate limit d
  | leftOut _ ih => exact (ih limit).withLog_left _
  | putIn _ ih => exact (ih limit).withLog_right _

end Alike

/-! ## Requests -/

namespace Client

/-- What some requests show. -/
def replies (c : Client) :
    List Query → List (Except LinkError (Option String) × List String × Duration)
  | [] => []
  | q :: queries =>
    (c.request q.command q.limit).1.shown :: (c.request q.command q.limit).2.2.replies queries

/-- The same clients but for their queues, which are alike. -/
structure Alike (c c' : Client) : Prop where
  label_eq : c'.label = c.label
  defaultLimit_eq : c'.defaultLimit = c.defaultLimit
  pipe_eq : c'.pipe = c.pipe
  ended_eq : c'.inbox.ended = c.inbox.ended
  queue : Wire.Alike c.inbox.queue c'.inbox.queue

variable {c c' : Client}

/-- Sending does the same to clients that are alike. -/
theorem Alike.send (h : c.Alike c') (line : String) :
    (c'.send line).result = (c.send line).result ∧
      (c.send line).client.Alike (c'.send line).client := by
  obtain ⟨label, limit, pipe, queue, ended⟩ := c
  obtain ⟨label', limit', pipe', queue', ended'⟩ := c'
  obtain ⟨rfl, rfl, rfl, rfl, hqueue⟩ := h
  cases pipe' <;> exact ⟨rfl, rfl, rfl, rfl, rfl, hqueue⟩

/-- Waiting brings the same to clients that are alike. -/
theorem Alike.await (h : c.Alike c') (command : String) (limit : Option Duration) :
    (c'.await command limit).1.shown = (c.await command limit).1.shown ∧
      (c.await command limit).2.Alike (c'.await command limit).2 := by
  have hread := h.queue.awaitReply c.label c.inbox.ended limit
  obtain ⟨label, defaultLimit, pipe, queue, ended⟩ := c
  obtain ⟨label', defaultLimit', pipe', queue', ended'⟩ := c'
  obtain ⟨rfl, rfl, rfl, rfl, hqueue⟩ := h
  refine ⟨?_, rfl, rfl, rfl, rfl, hread.rest⟩
  simp only [Exchange.shown, Client.await, hread.result_eq, hread.remarks_eq, hread.waited_eq]

/-- **One request** shows the same of clients that are alike, and they stay alike. -/
theorem Alike.request (h : c.Alike c') (command : String) (own : Option Duration) :
    (c'.request command own).1.shown = (c.request command own).1.shown ∧
      (c.request command own).2.2.Alike (c'.request command own).2.2 := by
  obtain ⟨hresult, hsent⟩ := h.send command
  have hlimit : c'.limitOf own = c.limitOf own := by
    unfold limitOf
    rw [h.defaultLimit_eq]
  cases hc : (c.send command).result with
  | error e =>
    rw [request_of_error hc, request_of_error (hresult.trans hc)]
    exact ⟨rfl, hsent⟩
  | ok _ =>
    rw [request_of_ok hc, request_of_ok (hresult.trans hc), hlimit]
    exact hsent.await command _

end Client

/-- **Error output and line ends make no difference.** Any requests show the same of clients that are
alike, and leave them alike. -/
theorem requests_alike {c c' : Client} (h : c.Alike c') (queries : List Query) :
    c'.replies queries = c.replies queries ∧ (c.after queries).Alike (c'.after queries) := by
  induction queries generalizing c c' with
  | nil => exact ⟨rfl, h⟩
  | cons q queries ih =>
    obtain ⟨hshown, hafter⟩ := h.request q.command q.limit
    obtain ⟨hreplies, hlater⟩ := ih hafter
    refine ⟨?_, hlater⟩
    rw [Client.replies, Client.replies, hshown, hreplies]

/-- Lines of the error output in the middle of a stream, and carriage returns at the end of its lines. -/
theorem requests_alike_stream :
    let c (queue : List Incoming) : Client :=
      { label := "engine", pipe := some { fault := "" }, inbox := { queue, ended := true } }
    let plain : List Incoming := [.line "info", .line "=\x02a", .line "b\x03", .line "=h8"]
    let marked : List Incoming := [.errorLine "=", .line "info\r", .line "=\x02a\r",
      .errorLine "\x03", .line "b\x03\r", .line "=h8", .errorLine "?"]
    (c marked).replies [⟨"board", none⟩, ⟨"gen", none⟩] =
      (c plain).replies [⟨"board", none⟩, ⟨"gen", none⟩] ∧
    ((c plain).after [⟨"board", none⟩, ⟨"gen", none⟩]).Alike
      ((c marked).after [⟨"board", none⟩, ⟨"gen", none⟩]) := by
  intro c plain marked
  have hsame : ∀ text : String, '\r' ∉ text.toList → SameLine text text := fun _ h => ⟨h, .inl rfl⟩
  have hreturn : ∀ text : String, '\r' ∉ text.toList → SameLine text (text ++ "\r") :=
    fun _ h => ⟨h, .inr rfl⟩
  have hqueue : Alike plain marked := by
    refine .putIn (.line (hreturn "info" (by decide)) (.line (hreturn "=\x02a" (by decide)) ?_))
    refine .putIn (.line (hreturn "b\x03" (by decide)) (.line (hsame "=h8" (by decide)) ?_))
    exact .putIn .nil
  have halike : (c plain).Alike (c marked) := ⟨rfl, rfl, rfl, rfl, hqueue⟩
  exact requests_alike halike _

end Wire

end EngineDuel

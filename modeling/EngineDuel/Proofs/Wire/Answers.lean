import EngineDuel.Proofs.Game.Parts
import EngineDuel.Proofs.Wire.Segments
import EngineDuel.Wire.Session

/-!
# What an answer can look like

The lines of an engine have no line feeds in them. An answer that stands on one line is then a text
without line feeds, and it is not empty, for a line without a text after its sign is no answer
(`Reply.of_answer`). Any other answer was read from a stream: its lines are joined by line feeds, and
between its marks there may be nothing at all. `awaitReply_answer` says that there is no third way.
-/

namespace EngineDuel.Wire

/-! ## The meaning of a line -/

namespace Reply

variable {line rest first text : List Char}

/-- At most one space is left out before the mark of a stream. -/
theorem of_ofSuccess_opening (h : ofSuccess rest = .opening first) :
    rest = streamStart :: first ∨ rest = ' ' :: streamStart :: first := by
  have hmark : ∀ {c : Char} {more rest' : List Char}, (if c = streamStart then Reply.opening more
      else if Text.trim rest' = [] then .done else .answer (Text.trim rest')) = .opening first →
      c = streamStart ∧ more = first := by
    intro c more rest' h
    by_cases hc : c = streamStart
    · rw [if_pos hc] at h
      exact ⟨hc, Reply.opening.inj h⟩
    · rw [if_neg hc] at h
      split at h <;> cases h
  obtain _ | ⟨c, more⟩ := rest
  · cases h
  by_cases hc : c = ' '
  · subst hc
    obtain _ | ⟨d, more⟩ := more
    · cases h
    obtain ⟨rfl, rfl⟩ := hmark (by simpa [ofSuccess] using h)
    exact .inr rfl
  · obtain ⟨rfl, rfl⟩ := hmark (by simpa [ofSuccess, hc] using h)
    exact .inl rfl

/-- An answer is not empty, and is part of what follows the sign. -/
theorem of_ofSuccess_answer (h : ofSuccess rest = .answer text) : text ≠ [] ∧ text ⊆ rest := by
  have hmark : ∀ {c : Char} {more rest' : List Char}, (if c = streamStart then Reply.opening more
      else if Text.trim rest' = [] then .done else .answer (Text.trim rest')) = .answer text →
      text ≠ [] ∧ text ⊆ rest' := by
    intro c more rest' h
    split at h
    · cases h
    · split at h
      · cases h
      · rename_i hne
        cases h
        exact ⟨hne, Text.trim_subset rest'⟩
  obtain _ | ⟨c, more⟩ := rest
  · cases h
  by_cases hc : c = ' '
  · subst hc
    obtain _ | ⟨d, more⟩ := more
    · cases h
    obtain ⟨hne, hsub⟩ := hmark (by simpa [ofSuccess] using h)
    exact ⟨hne, fun x hx => List.mem_cons_of_mem _ (hsub hx)⟩
  · exact hmark (by simpa [ofSuccess, hc] using h)

theorem of_opening (h : ofLine line = .opening first) : Opens line first := by
  unfold ofLine at h
  split at h
  · cases h
  · cases h
  · rename_i rest heq
    rcases of_ofSuccess_opening h with rfl | rfl
    · exact .inl heq
    · exact .inr heq
  · cases h

theorem of_answer (h : ofLine line = .answer text) : text ≠ [] ∧ text ⊆ line := by
  unfold ofLine at h
  split at h
  · cases h
  · cases h
  · rename_i rest heq
    obtain ⟨hne, hsub⟩ := of_ofSuccess_answer h
    refine ⟨hne, fun c hc => Text.trim_subset line ?_⟩
    rw [heq]
    exact List.mem_cons_of_mem _ (hsub hc)
  · cases h

end Reply

/-! ## Lines without line feeds -/

/-- No line has a line feed in it, as is so if they were read from bytes. -/
def Lined (lines : List Incoming) : Prop := ∀ text, .line text ∈ lines → '\n' ∉ text.toList

/-- The log shows a line that starts a stream. -/
def Streamed (log : List LogLine) : Prop :=
  ∃ label text first, Inbox.lineNote label text ∈ log ∧ Opens text.toList first

theorem Lined.tail {line : Incoming} {rest : List Incoming} (h : Lined (line :: rest)) : Lined rest :=
  fun text htext => h text (List.mem_cons_of_mem _ htext)

theorem Lined.append {lines more : List Incoming} (h : Lined lines) (h' : Lined more) :
    Lined (lines ++ more) := by
  intro text htext
  rcases List.mem_append.mp htext with htext | htext
  · exact h text htext
  · exact h' text htext

theorem Streamed.cons {log : List LogLine} (h : Streamed log) (line : LogLine) :
    Streamed (line :: log) := by
  obtain ⟨label, text, first, hmem, hopens⟩ := h
  exact ⟨label, text, first, List.mem_cons_of_mem _ hmem, hopens⟩

namespace Inbox

variable {label : String} {ended : Bool}

theorem lined_tooLate {limit : Option Duration} {d : Duration} {rest : List Incoming}
    (h : Lined rest) : Lined (tooLate limit d rest).rest := by
  intro text htext
  rcases List.mem_cons.mp htext with htext | htext
  · cases htext
  · exact h text htext

theorem rest_atEnd (limit : Option Duration) : (atEnd ended limit).rest = [] := by
  unfold atEnd
  split <;> rfl

/-- What a stream leaves in the queue was there before, but for the rest of a pause. -/
theorem lined_awaitStreamEnd {queue : List Incoming} (h : Lined queue) (limit : Option Duration)
    (lines : Stream) : Lined (awaitStreamEnd label ended queue limit lines).rest := by
  induction queue generalizing limit lines with
  | nil =>
    unfold awaitStreamEnd
    rw [rest_atEnd]
    exact h
  | cons line rest ih =>
    have hrest := h.tail
    cases line with
    | errorLine text => exact ih hrest limit lines
    | pause d =>
      unfold awaitStreamEnd
      cases afterPause limit d with
      | some left => exact ih hrest left lines
      | none => exact lined_tooLate hrest
    | line text =>
      show Lined (Reading.withLog _ _).rest
      cases addToStream lines (streamLine text.toList) with
      | inl lines => exact ih hrest limit lines
      | inr whole => exact hrest

/-- What a reply leaves in the queue was there before, but for the rest of a pause. -/
theorem lined_awaitReply {queue : List Incoming} (h : Lined queue) (limit : Option Duration) :
    Lined (awaitReply label ended queue limit).rest := by
  induction queue generalizing limit with
  | nil =>
    unfold awaitReply
    rw [rest_atEnd]
    exact h
  | cons line rest ih =>
    have hrest := h.tail
    cases line with
    | errorLine text => exact ih hrest limit
    | pause d =>
      unfold awaitReply
      cases afterPause limit d with
      | some left => exact ih hrest left
      | none => exact lined_tooLate hrest
    | line text =>
      unfold awaitReply
      cases Reply.ofLine text.toList with
      | blank => exact ih hrest limit
      | remark remark => exact ih hrest limit
      | done => exact hrest
      | answer answer => exact hrest
      | refusal message => exact hrest
      | opening first =>
        dsimp only
        cases openStream first with
        | inr whole => exact hrest
        | inl lines => exact lined_awaitStreamEnd hrest limit lines

/-- **Answers.** An answer has a text, on one line, or it was read from a stream. -/
theorem awaitReply_answer {queue : List Incoming} {limit : Option Duration} {answer : String}
    (h : Lined queue) (hresult : (awaitReply label ended queue limit).result = .ok (some answer)) :
    (answer ≠ "" ∧ '\n' ∉ answer.toList) ∨ Streamed (awaitReply label ended queue limit).log := by
  induction queue generalizing limit with
  | nil =>
    unfold awaitReply atEnd at hresult
    split at hresult <;> cases hresult
  | cons line rest ih =>
    have hrest := h.tail
    cases line with
    | errorLine text => exact (ih hrest hresult).imp_right fun hlog => hlog.cons _
    | pause d =>
      unfold awaitReply at hresult ⊢
      revert hresult
      cases afterPause limit d with
      | some left => exact fun hresult => ih hrest hresult
      | none =>
        intro hresult
        cases hresult
    | line text =>
      unfold awaitReply at hresult ⊢
      revert hresult
      cases hline : Reply.ofLine text.toList with
      | blank => exact fun hresult => (ih hrest hresult).imp_right fun hlog => hlog.cons _
      | remark remark => exact fun hresult => (ih hrest hresult).imp_right fun hlog => hlog.cons _
      | done =>
        intro hresult
        cases hresult
      | refusal message =>
        intro hresult
        cases hresult
      | answer found =>
        intro hresult
        obtain ⟨hne, hsub⟩ := Reply.of_answer hline
        cases hresult
        left
        rw [String.toList_ofList]
        refine ⟨fun hempty => hne ?_, fun hfeed => h text List.mem_cons_self (hsub hfeed)⟩
        simpa using congrArg String.toList hempty
      | opening first =>
        intro _
        exact .inr ⟨label, text, first, List.mem_cons_self, Reply.of_opening hline⟩

end Inbox

theorem Client.await_answer {c : Client} {command answer : String} {limit : Option Duration}
    (h : Lined c.inbox.queue) (hresult : (c.await command limit).1.result = .ok (some answer)) :
    (answer ≠ "" ∧ '\n' ∉ answer.toList) ∨ Streamed (c.await command limit).1.log := by
  refine Inbox.awaitReply_answer h ?_
  have hmap : (Inbox.awaitReply c.label c.inbox.ended c.inbox.queue limit).result.mapError
      (Client.failure c.label command limit) = .ok (some answer) := hresult
  cases hread : (Inbox.awaitReply c.label c.inbox.ended c.inbox.queue limit).result with
  | error e =>
    rw [hread] at hmap
    cases hmap
  | ok found =>
    rw [hread] at hmap
    cases hmap
    rfl

/-! ## Sessions -/

/-- An engine whose lines have no line feeds. -/
def Peer.Lined {σ : Type} (p : Peer σ) : Prop :=
  ∀ state bytes, EngineDuel.Wire.Lined (p.hear state bytes).1.lines

namespace Session

variable {σ : Type} {p : Peer σ} {s : Session σ}

/-- The lines that wait have no line feeds. -/
def Lined (s : Session σ) : Prop := EngineDuel.Wire.Lined s.client.inbox.queue

theorem queue_deliver (a : Arrival) (c : Client) :
    (deliver a c).inbox.queue = c.inbox.queue ++ a.lines := by
  unfold deliver
  by_cases h : a.ended = true
  · simp only [if_pos h]
    rfl
  · simp only [if_neg h]
    rfl

theorem queue_send (c : Client) (line : String) : (c.send line).client.inbox = c.inbox := by
  unfold Client.send
  cases c.pipe <;> rfl

/-- A request that could not be sent. -/
theorem request_of_error {command : String} {limit : Option Duration} {e : LinkError}
    (h : (s.client.send command).result = .error e) :
    (request p s command limit).1.result = .error e ∧
      (request p s command limit).2.client =
        deliver (p.hear s.peer (s.client.send command).delivered).1 (s.client.send command).client := by
  unfold request
  simp only [h, and_self]

/-- A request that was sent. -/
theorem request_of_ok {command : String} {limit : Option Duration}
    (h : (s.client.send command).result = .ok ()) :
    let (exchange, client) := (deliver (p.hear s.peer (s.client.send command).delivered).1
      (s.client.send command).client).await command (s.client.limitOf limit)
    (request p s command limit).1.result = exchange.result ∧
      (request p s command limit).1.log = (s.client.send command).log ++ exchange.log ∧
      (request p s command limit).2.client = client := by
  unfold request
  simp only [h, and_self]

/-- The lines that wait after something has arrived. -/
theorem lined_deliver (hp : p.Lined) {c : Client} (h : EngineDuel.Wire.Lined c.inbox.queue)
    (state : σ) (bytes : List UInt8) :
    EngineDuel.Wire.Lined (deliver (p.hear state bytes).1 c).inbox.queue := by
  rw [queue_deliver]
  exact h.append (hp state bytes)

theorem lined_afterCall (hp : p.Lined) (h : s.Lined) (call : Call) :
    Lined ((engine p).afterCall s call) := by
  cases call with
  | request command limit =>
    have hsend : EngineDuel.Wire.Lined (s.client.send command).client.inbox.queue := by
      rw [queue_send]
      exact h
    have hcome := lined_deliver hp hsend s.peer (s.client.send command).delivered
    show EngineDuel.Wire.Lined (request p s command limit).2.client.inbox.queue
    cases hsent : (s.client.send command).result with
    | error e =>
      rw [(request_of_error hsent).2]
      exact hcome
    | ok _ =>
      rw [(request_of_ok hsent).2.2]
      exact Inbox.lined_awaitReply hcome _
  | terminate =>
    have hclose : EngineDuel.Wire.Lined s.client.close.2.inbox.queue := by
      unfold Client.close
      cases s.client.pipe <;> exact h
    exact lined_deliver hp hclose s.peer s.client.close.1

/-- An answer has a text, on one line, or it was read from a stream. -/
theorem request_answer (hp : p.Lined) (h : s.Lined) {command answer : String}
    {limit : Option Duration} (hresult : (request p s command limit).1.result = .ok (some answer)) :
    (answer ≠ "" ∧ '\n' ∉ answer.toList) ∨ Streamed (request p s command limit).1.log := by
  have hsend : EngineDuel.Wire.Lined (s.client.send command).client.inbox.queue := by
    rw [queue_send]
    exact h
  have hcome := lined_deliver hp hsend s.peer (s.client.send command).delivered
  cases hsent : (s.client.send command).result with
  | error e =>
    rw [(request_of_error hsent).1] at hresult
    cases hresult
  | ok _ =>
    obtain ⟨hanswer, hlog, -⟩ := @request_of_ok _ p s command limit hsent
    rw [hanswer] at hresult
    rw [hlog]
    refine (Client.await_answer hcome hresult).imp_right ?_
    rintro ⟨label, text, first, hmem, hopens⟩
    exact ⟨label, text, first, List.mem_append_right _ hmem, hopens⟩

end Session

end EngineDuel.Wire

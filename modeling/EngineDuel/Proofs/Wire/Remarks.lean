import EngineDuel.Proofs.Wire.Answers

/-!
# What a request takes and shows

A request takes lines off the front of the queue until it is answered, until the output ends or until
no time is left (`Session.takenBy`). What it shows of them are the texts of the lines before the first
reply (`remarks`), whatever comes of the request; what it takes after that reply is inside the stream
that the reply starts (`OneReply`).

1. Inside a stream nothing is shown (`awaitStreamEnd_takes`).
2. Outside, a line answers nothing and is shown unless it is blank, or it is a reply, and then nothing
   more is shown (`awaitReply_takes`).
3. So it is with a request that has been sent, and any other takes nothing (`request_takes`).
-/

namespace EngineDuel.Wire

/-! ## Remarks -/

/-- A line of the output with the sign of a reply. -/
def Incoming.IsReply : Incoming → Prop
  | .line text => (Text.trim text.toList).head? = some '=' ∨ (Text.trim text.toList).head? = some '?'
  | _ => False

instance : DecidablePred Incoming.IsReply
  | .line text => inferInstanceAs (Decidable ((Text.trim text.toList).head? = some '=' ∨
      (Text.trim text.toList).head? = some '?'))
  | .errorLine _ => .isFalse id
  | .pause _ => .isFalse id

/-- What is shown of some lines: the texts of those before the first reply, without the blanks at their
ends and without the blank lines. -/
def remarks (lines : List Incoming) : List String :=
  (lines.takeWhile (¬ ·.IsReply)).filterMap Incoming.remark?

/-- Among these lines there is one reply at most: lines after it are inside the stream that it
starts. -/
inductive OneReply : List Incoming → Prop where
  | none : OneReply []
  | other {x lines} : ¬ x.IsReply → OneReply lines → OneReply (x :: lines)
  | reply {x} : x.IsReply → OneReply [x]
  | stream {text first lines} : Opens text.toList first → streamEnd ∉ first →
      OneReply (.line text :: lines)

theorem isReply_line_iff {text : String} :
    (Incoming.line text).IsReply ↔ ¬ (Incoming.line text).IsNoise := by
  simp only [Incoming.IsReply, Incoming.IsNoise, not_and_or, not_not]

theorem remarks_reply {x : Incoming} (h : x.IsReply) (lines : List Incoming) :
    remarks (x :: lines) = [] := by
  simp [remarks, h]

theorem remarks_other {x : Incoming} (h : ¬ x.IsReply) (lines : List Incoming) :
    remarks (x :: lines) = x.remark?.toList ++ remarks lines := by
  unfold remarks
  rw [List.takeWhile_cons_of_pos (by simpa using h)]
  cases hx : x.remark? <;> simp [hx]

/-! ## Taking lines -/

/-- A wait takes some lines off the front of a queue and leaves the rest, where it may have used up a
part of a pause. -/
inductive Leaves : List Incoming → List Incoming → List Incoming → Prop where
  | all {queue} : Leaves queue [] queue
  | pauseCut {length left queue} : Leaves (.pause length :: queue) [] (.pause left :: queue)
  | take {x queue lines rest} : Leaves queue lines rest → Leaves (x :: queue) (x :: lines) rest

/-- The lines at the front of a queue of which only these are left. -/
def taken (queue rest : List Incoming) : List Incoming := queue.take (queue.length - rest.length)

theorem Leaves.length_eq {queue lines rest : List Incoming} (h : Leaves queue lines rest) :
    queue.length = lines.length + rest.length := by
  induction h with
  | all => simp
  | pauseCut => simp
  | take _ ih => rw [List.length_cons, List.length_cons, ih, Nat.add_right_comm]

theorem Leaves.prefix_queue {queue lines rest : List Incoming} (h : Leaves queue lines rest) :
    lines <+: queue := by
  induction h with
  | all => exact List.nil_prefix
  | pauseCut => exact List.nil_prefix
  | take _ ih => exact (List.prefix_cons_inj _).mpr ih

theorem Leaves.taken_eq {queue lines rest : List Incoming} (h : Leaves queue lines rest) :
    taken queue rest = lines := by
  rw [taken, h.length_eq, Nat.add_sub_cancel]
  exact (List.prefix_iff_eq_take.mp h.prefix_queue).symm

/-- What a wait took off a queue, and what it showed of it. -/
structure Reading.Takes (r : Reading) (queue lines : List Incoming) (shown : List String) :
    Prop where
  leaves : Leaves queue lines r.rest
  remarks_eq : r.remarks = shown

namespace Reading.Takes

variable {r : Reading} {queue lines : List Incoming} {shown : List String}

/-- One more item in front, which is logged at most. -/
theorem cons (h : r.Takes queue lines shown) (x : Incoming) : r.Takes (x :: queue) (x :: lines) shown :=
  ⟨.take h.leaves, h.remarks_eq⟩

theorem withLog (h : r.Takes queue lines shown) (line : LogLine) :
    (r.withLog line).Takes queue lines shown :=
  ⟨h.leaves, h.remarks_eq⟩

theorem withRemark (h : r.Takes queue lines shown) (text : String) :
    (r.withRemark text).Takes queue lines (text :: shown) :=
  ⟨h.leaves, congrArg (text :: ·) h.remarks_eq⟩

theorem withWait (h : r.Takes queue lines shown) (d : Duration) :
    (r.withWait d).Takes queue lines shown :=
  ⟨h.leaves, h.remarks_eq⟩

end Reading.Takes

namespace Inbox

variable (label : String) (ended : Bool)

theorem atEnd_takes (limit : Option Duration) : (atEnd ended limit).Takes [] [] [] := by
  unfold atEnd
  split <;> exact ⟨.all, rfl⟩

theorem tooLate_takes (limit : Option Duration) (d : Duration) (rest : List Incoming) :
    (tooLate limit d rest).Takes (.pause d :: rest) [] [] :=
  ⟨.pauseCut, rfl⟩

/-- **Inside a stream** nothing is shown. -/
theorem awaitStreamEnd_takes (queue : List Incoming) (limit : Option Duration) (lines : Stream) :
    ∃ inner, (awaitStreamEnd label ended queue limit lines).Takes queue inner [] := by
  induction queue generalizing limit lines with
  | nil =>
    unfold awaitStreamEnd
    exact ⟨[], atEnd_takes ended limit⟩
  | cons x queue ih =>
    cases x with
    | errorLine text =>
      obtain ⟨inner, h⟩ := ih limit lines
      exact ⟨_, (h.cons (.errorLine text)).withLog _⟩
    | pause d =>
      unfold awaitStreamEnd
      cases afterPause limit d with
      | none => exact ⟨[], tooLate_takes limit d queue⟩
      | some left =>
        obtain ⟨inner, h⟩ := ih left lines
        exact ⟨_, (h.cons (.pause d)).withWait d⟩
    | line text =>
      unfold awaitStreamEnd
      cases addToStream lines (streamLine text.toList) with
      | inr whole => exact ⟨[.line text], .take .all, rfl⟩
      | inl lines =>
        obtain ⟨inner, h⟩ := ih limit lines
        exact ⟨_, (h.cons (.line text)).withLog _⟩

/-- **Outside of a stream** the remarks are those of the lines that are taken, and one reply at most is
taken. -/
theorem awaitReply_takes (queue : List Incoming) (limit : Option Duration) :
    ∃ lines, (awaitReply label ended queue limit).Takes queue lines (remarks lines) ∧
      OneReply lines := by
  induction queue generalizing limit with
  | nil =>
    unfold awaitReply
    exact ⟨[], atEnd_takes ended limit, .none⟩
  | cons x queue ih =>
    cases x with
    | errorLine text =>
      obtain ⟨lines, h, hone⟩ := ih limit
      refine ⟨.errorLine text :: lines, ?_, .other id hone⟩
      rw [remarks_other id]
      exact (h.cons _).withLog _
    | pause d =>
      unfold awaitReply
      cases afterPause limit d with
      | none => exact ⟨[], tooLate_takes limit d queue, .none⟩
      | some left =>
        obtain ⟨lines, h, hone⟩ := ih left
        refine ⟨.pause d :: lines, ?_, .other id hone⟩
        rw [remarks_other id]
        exact (h.cons _).withWait d
    | line text =>
      by_cases hnoise : (Incoming.line text).IsNoise
      · obtain ⟨lines, h, hone⟩ := ih limit
        have hother : ¬ (Incoming.line text).IsReply := fun hreply => isReply_line_iff.mp hreply hnoise
        refine ⟨.line text :: lines, ?_, .other hother hone⟩
        simp only [remarks_other hother, awaitReply, Reply.ofLine_noise hnoise.1 hnoise.2]
        by_cases hblank : Text.trim text.toList = []
        · simpa [hblank, Incoming.remark?] using (h.cons (.line text)).withLog (lineNote label text)
        · simpa [hblank, Incoming.remark?] using ((h.cons (.line text)).withRemark
            (String.ofList (Text.trim text.toList))).withLog (lineNote label text)
      have hreply := isReply_line_iff.mpr hnoise
      rcases terminal_or_opens hnoise with ⟨said, hterminal⟩ | ⟨first, hopens, hend⟩
      · have hread := awaitReply_terminal label ended limit hterminal queue
        refine ⟨[.line text], ⟨?_, ?_⟩, .reply hreply⟩
        · rw [List.singleton_append] at hread
          rw [hread.rest_eq]
          exact .take .all
        · rw [remarks_reply hreply]
          exact hread.remarks_eq
      · obtain ⟨inner, h⟩ := awaitStreamEnd_takes label ended queue limit (markLine first)
        refine ⟨.line text :: inner, ?_, .stream hopens hend⟩
        simp only [remarks_reply hreply, awaitReply, Reply.ofLine_opening hopens,
          openStream_of_notMem hend]
        exact (h.cons (.line text)).withLog _

end Inbox

/-! ## Requests -/

/-- Waiting for a reply shows the remarks among the lines that it takes. -/
theorem Client.await_takes (c : Client) (command : String) (limit : Option Duration) :
    ∃ lines, Leaves c.inbox.queue lines (c.await command limit).2.inbox.queue ∧
      (c.await command limit).1.diagnostics = remarks lines ∧ OneReply lines := by
  obtain ⟨lines, hread, hone⟩ :=
    Inbox.awaitReply_takes c.label c.inbox.ended c.inbox.queue limit
  exact ⟨lines, hread.leaves, hread.remarks_eq, hone⟩

namespace Session

variable {σ : Type}

/-- The lines that wait once a command has been sent, or could not be sent. -/
def waiting (p : Peer σ) (s : Session σ) (command : String) : List Incoming :=
  s.client.inbox.queue ++ (p.hear s.peer (s.client.send command).delivered).1.lines

/-- The lines that a request takes off the queue. -/
def takenBy (p : Peer σ) (s : Session σ) (command : String) (limit : Option Duration) :
    List Incoming :=
  taken (waiting p s command) (request p s command limit).2.client.inbox.queue

variable {p : Peer σ} {s : Session σ} {command : String} {limit : Option Duration}

theorem queue_sent : (deliver (p.hear s.peer (s.client.send command).delivered).1
    (s.client.send command).client).inbox.queue = waiting p s command := by
  rw [queue_deliver, queue_send]
  rfl

/-- **A request** shows the remarks among the lines that it takes, whatever comes of it, and it takes
one reply at most. -/
theorem request_takes :
    Leaves (waiting p s command) (takenBy p s command limit)
        (request p s command limit).2.client.inbox.queue ∧
      (request p s command limit).1.diagnostics = remarks (takenBy p s command limit) ∧
      OneReply (takenBy p s command limit) := by
  suffices h : ∃ lines, Leaves (waiting p s command) lines
        (request p s command limit).2.client.inbox.queue ∧
      (request p s command limit).1.diagnostics = remarks lines ∧ OneReply lines by
    obtain ⟨lines, hleaves, h⟩ := h
    have hlines : takenBy p s command limit = lines := hleaves.taken_eq
    rw [hlines]
    exact ⟨hleaves, h⟩
  rw [← queue_sent]
  cases hsent : (s.client.send command).result with
  | error e =>
    refine ⟨[], ?_, ?_, .none⟩
    · rw [(request_of_error hsent).2]
      exact .all
    · simp only [request, hsent]
      rfl
  | ok _ =>
    simp only [request, hsent]
    exact Client.await_takes _ command (s.client.limitOf limit)

end Session

end EngineDuel.Wire

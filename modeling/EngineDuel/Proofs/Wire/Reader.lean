import EngineDuel.Proofs.Text.Lines
import EngineDuel.Proofs.Wire.InStep
import EngineDuel.Wire.Reader

/-!
# Bytes read as lines

A client whose lines are read from bytes answers as one that has all readable lines in its queue and
then the end, whatever the pace of the reader (`bytes_read_as_lines`).

1. The reader cuts a line off the bytes, decodes the whole of it and takes the marks of its end off the
   text. The lines of the bytes are cut first and decoded then, which comes to the same
   (`decode?_lineFeed`, `readableLines_eq`).
2. What waits for the client, with what the reader will still pass on, is a queue (`Reception.whole`),
   and no step of the reader changes it (`whole_readOn`).
3. A wait that is not blocked would have gone just so with more lines in the queue
   (`Inbox.awaitReply_append`). So a wait is a wait at the whole queue (`await_spec`), and a request a
   request (`request_spec`).
4. A line that is not UTF-8 hides what is behind it and nothing before it (`readableLines_malformed`).
   Requests beyond the last whole segment are told that there is no more (`exchanges_segments`).
-/

namespace EngineDuel.Wire

open Text (lineFeed carriageReturn decode? readableLines)

/-! ## One line -/

theorem cutLine_append {line : List UInt8} (h : lineFeed ∉ line) (rest : List UInt8) :
    cutLine (line ++ lineFeed :: rest) = (line ++ [lineFeed], rest) := by
  induction line with
  | nil => rfl
  | cons b line ih =>
    have hb : b ≠ lineFeed := fun heq => h (heq ▸ List.mem_cons_self ..)
    rw [List.cons_append, cutLine, if_neg hb, ih fun hmem => h (List.mem_cons_of_mem _ hmem)]
    rfl

theorem cutLine_last {line : List UInt8} (h : lineFeed ∉ line) : cutLine line = (line, []) := by
  induction line with
  | nil => rfl
  | cons b line ih =>
    have hb : b ≠ lineFeed := fun heq => h (heq ▸ List.mem_cons_self ..)
    rw [cutLine, if_neg hb, ih fun hmem => h (List.mem_cons_of_mem _ hmem)]

/-- Bytes hold no line feed, or they are a line that ends in one and others behind it. -/
theorem lineFeed_cases (bytes : List UInt8) :
    lineFeed ∉ bytes ∨ ∃ line rest, lineFeed ∉ line ∧ bytes = line ++ lineFeed :: rest := by
  by_cases h : lineFeed ∈ bytes
  · obtain ⟨line, rest, rfl, hline⟩ := List.eq_append_cons_of_mem h
    exact .inr ⟨line, rest, hline, rfl⟩
  · exact .inl h

/-- A text of bytes without a line feed has none. -/
theorem chomp_of_notMem {line : List UInt8} (h : lineFeed ∉ line) {text : String}
    (htext : decode? line = some text) : String.ofList (chomp text.toList) = text := by
  have hlast : text.toList.getLast? ≠ some '\n' := fun heq => by
    rw [Text.decode?_eq_some_iff] at htext
    exact h (htext ▸ Text.lineFeed_mem_encode.2 (List.mem_of_getLast? heq))
  rw [chomp, if_neg hlast, String.ofList_toList]

theorem chomp_lineFeed (s : List Char) : chomp (s ++ ['\n']) = Text.withoutReturn s := by
  rw [chomp, List.getLast?_concat, if_pos rfl, List.dropLast_concat]
  rfl

/-- Whether a line is UTF-8 does not depend on a carriage return at its end. -/
theorem decode?_dropReturn_none {line : List UInt8} (h : decode? line = none) :
    decode? (Text.dropReturn line) = none := by
  unfold Text.dropReturn
  split
  · next hlast =>
    obtain ⟨front, rfl⟩ := List.getLast?_eq_some_iff.1 hlast
    have hreturn : decode? (front ++ [carriageReturn]) =
        (decode? front).map (· ++ String.ofList ['\r']) :=
      Text.decode?_concat (a := '\r') (by decide) front
    rw [hreturn, Option.map_eq_none_iff] at h
    rw [List.dropLast_concat, h]
  · exact h

/-- The marks of an end can be taken off a line or off its bytes. -/
theorem decode?_lineFeed (line : List UInt8) :
    (decode? (line ++ [lineFeed])).map (fun text => String.ofList (chomp text.toList)) =
      decode? (Text.dropReturn line) := by
  have hfeed : decode? (line ++ [lineFeed]) = (decode? line).map (· ++ String.ofList ['\n']) :=
    Text.decode?_concat (a := '\n') (by decide) line
  rw [hfeed]
  cases htext : decode? line with
  | none => rw [decode?_dropReturn_none htext]; rfl
  | some text =>
    have hreturn : Text.encode (String.ofList (Text.withoutReturn text.toList)) =
        Text.dropReturn line := by
      rw [Text.encode_ofList, ← Text.dropReturn_flatMap, ← Text.encode_eq,
        Text.decode?_eq_some_iff.1 htext]
    rw [← hreturn, Text.decode?_encode, Option.map_some, Option.map_some, String.toList_append,
      String.toList_ofList, chomp_lineFeed]

/-- A last line without a line feed. -/
theorem readLine?_last {line : List UInt8} (h : lineFeed ∉ line) (hne : line ≠ []) :
    readLine? line = (decode? line).map (·, []) := by
  rw [readLine?, List.isEmpty_eq_false_iff.2 hne, if_neg Bool.false_ne_true, cutLine_last h]
  dsimp only
  cases htext : decode? line with
  | none => rfl
  | some text => rw [Option.map_some, Option.map_some, chomp_of_notMem h htext]

/-- A line that ends in a line feed. -/
theorem readLine?_lineFeed {line : List UInt8} (h : lineFeed ∉ line) (rest : List UInt8) :
    readLine? (line ++ lineFeed :: rest) = (decode? (Text.dropReturn line)).map (·, rest) := by
  have hempty : (line ++ lineFeed :: rest).isEmpty = false := by simp
  rw [readLine?, hempty, if_neg Bool.false_ne_true, cutLine_append h, ← decode?_lineFeed,
    Option.map_map]
  rfl

/-! ## All lines -/

/-- **One line and then the others.** -/
theorem readableLines_eq (bytes : List UInt8) :
    readableLines bytes = match readLine? bytes with
      | some (text, rest) => text :: readableLines rest
      | none => [] := by
  rcases lineFeed_cases bytes with hfeed | ⟨line, rest, hline, rfl⟩
  · by_cases hnil : bytes = []
    · rw [hnil]
      rfl
    · have hlines : Text.byteLines bytes = bytes :: Text.byteLines [] := by
        rw [Text.byteLines_last hfeed, List.isEmpty_eq_false_iff.2 hnil]
        rfl
      rw [Text.readableLines_of_byteLines hlines, readLine?_last hfeed hnil]
      cases decode? bytes <;> rfl
  · rw [Text.readableLines_of_byteLines (Text.byteLines_cons hline rest), readLine?_lineFeed hline]
    cases decode? (Text.dropReturn line) <;> rfl

/-! ## More lines in a queue -/

/-- The end is reported only where the output has ended. -/
theorem Client.ended_of_await {c : Client} {command engine asked : String} {limit : Option Duration}
    (h : (c.await command limit).1.result = .error (.disconnected engine asked)) :
    (c.await command limit).2.inbox.ended = true := by
  show c.inbox.ended = true
  cases hended : c.inbox.ended with
  | true => rfl
  | false =>
    have hne : (Inbox.awaitReply c.label false c.inbox.queue limit).result ≠ .error .ended :=
      Inbox.awaitReply_result_ne c.inbox.queue limit
    simp only [await, hended] at h
    cases hread : (Inbox.awaitReply c.label false c.inbox.queue limit).result with
    | ok answer => rw [hread] at h; cases h
    | error e =>
      cases e with
      | ended => exact absurd hread hne
      | refused | late | silent => rw [hread] at h; cases h

/-- What was read, with more lines behind those that were left. -/
def Reading.before (r : Reading) (more : List Incoming) : Reading :=
  { r with rest := r.rest ++ more }

namespace Inbox

variable {label : String} {queue : List Incoming}

theorem awaitStreamEnd_append {lines : Stream}
    (h : (awaitStreamEnd label false queue none lines).result ≠ .error .silent) (ended : Bool)
    (more : List Incoming) :
    awaitStreamEnd label ended (queue ++ more) none lines =
      (awaitStreamEnd label false queue none lines).before more := by
  induction queue generalizing lines with
  | nil => exact absurd rfl h
  | cons x rest ih =>
    cases x with
    | errorLine text => exact congrArg (Reading.withLog _) (ih h)
    | pause d => exact congrArg (Reading.withWait d) (ih h)
    | line text =>
      rw [List.cons_append]
      unfold awaitStreamEnd at h ⊢
      revert h
      cases addToStream lines (streamLine text.toList) with
      | inl lines => exact fun h => congrArg (Reading.withLog _) (ih h)
      | inr whole => exact fun _ => rfl

/-- **Lines behind a reply** make no difference to it. -/
theorem awaitReply_append (h : (awaitReply label false queue none).result ≠ .error .silent)
    (ended : Bool) (more : List Incoming) :
    awaitReply label ended (queue ++ more) none =
      (awaitReply label false queue none).before more := by
  induction queue with
  | nil => exact absurd rfl h
  | cons x rest ih =>
    cases x with
    | errorLine text => exact congrArg (Reading.withLog _) (ih h)
    | pause d => exact congrArg (Reading.withWait d) (ih h)
    | line text =>
      rw [List.cons_append]
      unfold awaitReply at h ⊢
      revert h
      cases Reply.ofLine text.toList with
      | blank => exact fun h => congrArg (Reading.withLog _) (ih h)
      | remark remark =>
        exact fun h => congrArg (Reading.withLog _ ∘ Reading.withRemark _) (ih h)
      | done | answer | refusal => exact fun _ => rfl
      | opening first =>
        dsimp only
        cases openStream first with
        | inl lines => exact fun h => congrArg (Reading.withLog _) (awaitStreamEnd_append h ended more)
        | inr whole => exact fun _ => rfl

end Inbox

/-! ## The lines that are still to come -/

namespace Reception

/-- The lines that wait and those that the reader will still pass on. -/
def lines (r : Reception) : List Incoming :=
  r.inbox.queue ++ if r.inbox.ended then [] else (readableLines r.unread).map .line

/-- The same client with all these lines in its queue, and then the end. -/
def whole (r : Reception) : Client :=
  { r.client with inbox := { queue := r.lines, ended := true } }

/-- The reader takes nothing and brings nothing that was not to come. -/
theorem whole_readOn (r : Reception) : r.readOn.whole = r.whole := by
  obtain ⟨label, pipe, ⟨queue, ended⟩, unread, paces⟩ := r
  cases ended with
  | true => rfl
  | false =>
    simp only [readOn, whole, lines, Bool.false_eq_true, if_false, readableLines_eq unread]
    cases readLine? unread with
    | none => rfl
    | some found =>
      simp only [withClient, client, Client.receive, Bool.false_eq_true, if_false, List.map_cons,
        List.append_assoc, List.singleton_append]

theorem whole_readAhead (r : Reception) : r.readAhead.whole = r.whole := by
  have hsteps (n : ℕ) (r : Reception) : (Nat.repeat readOn n r).whole = r.whole := by
    induction n with
    | zero => rfl
    | succ n ih => exact (whole_readOn _).trans ih
  unfold readAhead
  split
  · rfl
  · exact hsteps _ _

/-! ## Waiting -/

/-- A client that is not blocked waits as if all lines were there. -/
theorem await_of_not_isBlocked {r : Reception} (h : ¬ r.client.isBlocked) (command : String) :
    (r.whole.await command none).1 = (r.client.await command none).1 ∧
      (r.whole.await command none).2 = (r.withClient (r.client.await command none).2).whole := by
  obtain ⟨label, pipe, ⟨queue, ended⟩, unread, paces⟩ := r
  cases ended with
  | true =>
    simp only [whole, lines, client, withClient, if_true, List.append_nil, Client.await, and_self]
  | false =>
    have hsilent : (Inbox.awaitReply label false queue none).result ≠ .error .silent := fun heq => by
      simp [client, Client.isBlocked, heq] at h
    simp only [whole, lines, client, withClient, Bool.false_eq_true, if_false, Client.await,
      Inbox.awaitReply_append hsilent, Reading.before, and_self]

/-- **The client waits as if all lines were there**, however far the reader gets of its own accord. -/
theorem await_spec (r : Reception) (command : String) :
    (r.await command).1 = (r.whole.await command none).1 ∧
      (r.await command).2.whole = (r.whole.await command none).2 := by
  fun_induction await r command with
  | case1 r ahead hblocked hlt ih => rwa [whole_readOn, whole_readAhead] at ih
  | case2 r ahead hblocked exchange client hawait =>
    obtain ⟨hexchange, hclient⟩ := await_of_not_isBlocked hblocked command
    rw [whole_readAhead, hawait] at hexchange hclient
    exact ⟨hexchange.symm, hclient.symm⟩

/-- **The end** is reported only where the reader has stopped. -/
theorem ended_of_await {r : Reception} {command engine asked : String}
    (h : (r.await command).1.result = .error (.disconnected engine asked)) :
    (r.await command).2.inbox.ended = true := by
  fun_induction await r command with
  | case1 r ahead hblocked hlt ih => exact ih h
  | case2 r ahead hblocked exchange client hawait =>
    have hresult : (ahead.client.await command none).1.result = .error (.disconnected engine asked) := by
      rw [hawait]
      exact h
    have hended := Client.ended_of_await hresult
    rwa [hawait] at hended

/-! ## Requests -/

/-- The command is sent as that client sends it. -/
theorem send_whole (r : Reception) (command : String) :
    (r.whole.send command).result = (r.client.send command).result ∧
      (r.whole.send command).delivered = (r.client.send command).delivered ∧
      (r.whole.send command).log = (r.client.send command).log ∧
      (r.whole.send command).client = (r.withClient (r.client.send command).client).whole := by
  obtain ⟨label, pipe, inbox, unread, paces⟩ := r
  cases pipe <;> exact ⟨rfl, rfl, rfl, rfl⟩

/-- **One request** brings what it brings a client with all the lines, and leaves what that leaves. -/
theorem request_spec (r : Reception) (command : String) :
    (r.request command).1 = (r.whole.request command none).1 ∧
      (r.request command).2.1 = (r.whole.request command none).2.1 ∧
      (r.request command).2.2.whole = (r.whole.request command none).2.2 := by
  obtain ⟨hresult, hdelivered, hlog, hclient⟩ := r.send_whole command
  cases hsent : (r.client.send command).result with
  | error e =>
    rw [Client.request_of_error (hresult.trans hsent), request, Sending.thenAwait_error hsent,
      hdelivered, hlog, hclient]
    exact ⟨rfl, rfl, rfl⟩
  | ok _ =>
    obtain ⟨hexchange, hleft⟩ := (r.withClient (r.client.send command).client).await_spec command
    rw [Client.request_of_ok (hresult.trans hsent), request, Sending.thenAwait_ok hsent,
      hdelivered, hlog, hclient, hexchange]
    exact ⟨rfl, rfl, hleft⟩

end Reception

/-! ## Many requests -/

namespace Client

/-- What some requests without a limit bring, and the bytes that get through. -/
def exchanges (c : Client) : List String → List (Exchange × List UInt8)
  | [] => []
  | command :: commands =>
    let (exchange, sent, c') := c.request command none
    (exchange, sent) :: c'.exchanges commands

end Client

theorem Reception.exchanges_eq (r : Reception) (commands : List String) :
    r.exchanges commands = r.whole.exchanges commands := by
  induction commands generalizing r with
  | nil => rfl
  | cons command commands ih =>
    obtain ⟨hexchange, hsent, hclient⟩ := r.request_spec command
    show ((r.request command).1, (r.request command).2.1) ::
      (r.request command).2.2.exchanges commands = _
    rw [ih, hexchange, hsent, hclient]
    rfl

namespace Client

variable {c : Client} {label : String}

/-- A request that no whole segment waits for fails, and uses up what is there. -/
theorem request_unfinished {command : String} {commands : List String} {queue : List Incoming}
    (h : c.Ready label (command :: commands) queue) (hended : c.inbox.ended = true)
    (hlimit : c.defaultLimit = none) (hpause : ∀ d, .pause d ∉ queue)
    (hrest : ∀ (s : Segment) (more : List Incoming), queue ≠ s.lines ++ more) :
    (c.request command none).1.result = .error (.disconnected label command) ∧
      (c.request command none).2.2.Ready label commands [] := by
  obtain ⟨hsent, ⟨rfl, hcarries, rfl⟩, hinbox, -⟩ := h.send
  obtain ⟨remarks, hread⟩ :=
    Inbox.awaitReply_unfinished (c.send command).client.label hpause hrest
  have hnone : c.limitOf none = none := hlimit
  rw [request_of_ok hsent, hnone]
  simp only [await, hinbox, hended] at hread ⊢
  refine ⟨?_, rfl, hcarries, hread.rest_eq⟩
  rw [hread.result_eq]
  rfl

theorem request_keeps (c : Client) (command : String) :
    (c.request command none).2.2.inbox.ended = c.inbox.ended ∧
      (c.request command none).2.2.defaultLimit = c.defaultLimit := by
  have hsend : (c.send command).client.inbox = c.inbox ∧
      (c.send command).client.defaultLimit = c.defaultLimit := by
    unfold send
    split <;> exact ⟨rfl, rfl⟩
  cases hresult : (c.send command).result with
  | error e =>
    rw [request_of_error hresult, hsend.1]
    exact ⟨rfl, hsend.2⟩
  | ok _ =>
    rw [request_of_ok hresult]
    refine ⟨?_, hsend.2⟩
    show (c.send command).client.inbox.ended = c.inbox.ended
    rw [hsend.1]

/-- What request number `i` comes to if there are these segments: it gets the segment of its number,
and fails if there is none. -/
def Gets (label command : String) (segments : List Segment) (i : ℕ) (x : Exchange) : Prop :=
  match segments[i]? with
  | some s => x.result = s.said.mapError (.rejected label command) ∧ x.diagnostics = s.remarks
  | none => x.result = .error (.disconnected label command)

/-- **Segments for the first requests, and nothing for the others.** -/
theorem exchanges_segments {segments : List Segment} {commands : List String} {rest : List Incoming}
    (h : c.Ready label commands (segments.flatMap Segment.lines ++ rest))
    (hended : c.inbox.ended = true) (hlimit : c.defaultLimit = none) (hpause : ∀ d, .pause d ∉ rest)
    (hrest : ∀ (s : Segment) (more : List Incoming), rest ≠ s.lines ++ more)
    {i : ℕ} {command : String} (hi : commands[i]? = some command) :
    ∃ x sent, (c.exchanges commands)[i]? = some (x, sent) ∧ Gets label command segments i x := by
  induction commands generalizing c segments rest i with
  | nil => cases hi
  | cons first commands ih =>
    obtain ⟨hended', hlimit'⟩ := c.request_keeps first
    rw [hended] at hended'
    rw [hlimit] at hlimit'
    cases segments with
    | nil =>
      obtain ⟨hresult, hready⟩ := request_unfinished h hended hlimit hpause hrest
      cases i with
      | zero =>
        obtain rfl := Option.some.inj hi
        exact ⟨_, _, rfl, hresult⟩
      | succ i =>
        have hempty (s : Segment) (more : List Incoming) : [] ≠ s.lines ++ more :=
          (List.append_ne_nil_of_left_ne_nil s.lines_ne_nil more).symm
        have hready' : (c.request first none).2.2.Ready label commands
            (([] : List Segment).flatMap Segment.lines ++ []) := hready
        exact ih hready' hended' hlimit' (fun _ => List.not_mem_nil) hempty hi
    | cons s segments =>
      rw [List.flatMap_cons, List.append_assoc] at h
      obtain ⟨hresult, hremarks, hready⟩ := request_segment h none
      cases i with
      | zero =>
        obtain rfl := Option.some.inj hi
        exact ⟨_, _, rfl, hresult, hremarks⟩
      | succ i => exact ih hready hended' hlimit' hpause hrest hi

end Client

/-! ## Malformed bytes -/

/-- Whole lines: nothing, or bytes that end in a line feed. -/
def WholeLines (bytes : List UInt8) : Prop := bytes = [] ∨ bytes.getLast? = some lineFeed

/-- A line that is not UTF-8 hides itself and everything behind it, and nothing before it. -/
theorem readableLines_malformed {front bad : List UInt8} (hfront : WholeLines front)
    (hbad : decode? (cutLine bad).1 = none) : readableLines (front ++ bad) = readableLines front := by
  induction hlength : front.length using Nat.strong_induction_on generalizing front with
  | _ n ih =>
    rcases lineFeed_cases front with hfeed | ⟨line, rest, hline, rfl⟩
    · have hnil : front = [] := hfront.resolve_right fun hlast => hfeed (List.mem_of_getLast? hlast)
      have hread : readLine? bad = none := by
        unfold readLine?
        split
        · rfl
        · dsimp only
          rw [hbad]
          rfl
      rw [hnil, List.nil_append, readableLines_eq, hread]
      rfl
    · have hrest : WholeLines rest := by
        rcases List.eq_nil_or_concat rest with hnil | ⟨more, b, hmore⟩
        · exact .inl hnil
        · rw [List.concat_eq_append] at hmore
          have hlast := hfront.resolve_left (List.append_ne_nil_of_right_ne_nil _ nofun)
          rw [hmore, ← List.cons_append, ← List.append_assoc, List.getLast?_concat] at hlast
          exact .inr (by rw [hmore, List.getLast?_concat, hlast])
      have hlt : rest.length < n := by
        rw [← hlength, List.length_append, List.length_cons]
        omega
      rw [List.append_assoc, List.cons_append, readableLines_eq, readableLines_eq (line ++ _),
        readLine?_lineFeed hline, readLine?_lineFeed hline]
      cases decode? (Text.dropReturn line) with
      | none => rfl
      | some text => exact congrArg (text :: ·) (ih _ hlt hrest rfl)

/-! ## Bytes and lines -/

/-- A client that reads bytes, with a reader at some pace. -/
def Reception.ofBytes (label : String) (pipe : Option Pipe) (bytes : List UInt8) (paces : List ℕ) :
    Reception :=
  { label, pipe, unread := bytes, paces }

/-- A client that has some lines in its queue, and then the end. -/
def Client.ofLines (label : String) (pipe : Option Pipe) (lines : List String) : Client :=
  { label, pipe, inbox := { queue := lines.map .line, ended := true } }

/-- Bytes are read as some lines. -/
structure ReadAs (label : String) (pipe : Option Pipe) (bytes : List UInt8) (paces : List ℕ)
    (commands : List String) (lines : List String) : Prop where
  /-- Each request brings what it brings a client with these lines. -/
  exchanges_eq : (Reception.ofBytes label pipe bytes paces).exchanges commands =
    (Client.ofLines label pipe lines).exchanges commands
  /-- Nothing before a malformed line is lost, and nothing is added. -/
  malformed : ∀ front bad, bytes = front ++ bad → WholeLines front → decode? (cutLine bad).1 = none →
    (Reception.ofBytes label pipe bytes paces).exchanges commands =
      (Reception.ofBytes label pipe front paces).exchanges commands
  /-- If the commands get through, the first of them get the segments of the lines, and all others
  are told that there is no more. -/
  segments : (∃ p, pipe = some p ∧ p.Carries commands) → ∃ (segments : List Segment) (rest : List Incoming),
    lines.map .line = segments.flatMap Segment.lines ++ rest ∧
    (∀ (s : Segment) (more : List Incoming), rest ≠ s.lines ++ more) ∧
    ∀ i command, commands[i]? = some command →
      ∃ x sent, ((Reception.ofBytes label pipe bytes paces).exchanges commands)[i]? = some (x, sent) ∧
        Client.Gets label command segments i x

/-- **Reading bytes is reading lines.** Whatever an engine writes, whatever it is asked without a
limit, and however far ahead the reader is at any time: each request brings what it brings a client
that has all readable lines in its queue and then the end. -/
theorem bytes_read_as_lines (label : String) (pipe : Option Pipe) (bytes : List UInt8)
    (paces : List ℕ) (commands : List String) :
    ReadAs label pipe bytes paces commands (readableLines bytes) where
  exchanges_eq := Reception.exchanges_eq _ _
  malformed front bad hbytes hfront hbad := by
    have hlines := readableLines_malformed hfront hbad
    rw [← hbytes] at hlines
    have hwhole (bytes : List UInt8) : (Reception.ofBytes label pipe bytes paces).whole =
        Client.ofLines label pipe (readableLines bytes) := rfl
    rw [Reception.exchanges_eq, Reception.exchanges_eq, hwhole, hwhole, hlines]
  segments := by
    rintro hpipe
    obtain ⟨segments, rest, hqueue, hrest⟩ := exists_segments ((readableLines bytes).map .line)
    refine ⟨segments, rest, hqueue, hrest, fun i command hi => ?_⟩
    have hready : (Client.ofLines label pipe (readableLines bytes)).Ready label commands
        (segments.flatMap Segment.lines ++ rest) := ⟨rfl, hpipe, hqueue⟩
    have hpause (d : Duration) : .pause d ∉ rest := fun hd => by
      have hmem := hqueue ▸ List.mem_append_right (segments.flatMap Segment.lines) hd
      obtain ⟨text, -, htext⟩ := List.mem_map.1 hmem
      cases htext
    rw [Reception.exchanges_eq]
    exact Client.exchanges_segments hready rfl rfl hpause hrest hi

/-- A stream that is broken off by a byte that stands in no text. -/
def brokenOff : List UInt8 :=
  Text.encode "info\n=h8\r\n=\x02a\n" ++ 0xff :: Text.encode "\x03\n=c3\n"

theorem bytes_read_as_lines_brokenOff :
    ((Reception.ofBytes "engine" (some { fault := "" }) brokenOff [2, 0, 7]).exchanges
      ["gen", "board", "gen"]).map (·.1.result) =
        [.ok (some "h8"), .error (.disconnected "engine" "board"),
          .error (.disconnected "engine" "gen")] := by
  have hlines : readableLines brokenOff = ["info", "=h8", "=\x02a"] := by decide +kernel
  rw [(bytes_read_as_lines _ _ _ _ _).exchanges_eq, hlines]
  decide +kernel

end EngineDuel.Wire

import EngineDuel.Proofs.Wire.Delivery
import EngineDuel.Proofs.Wire.InStep

/-!
# Ways that take so much and no more

The other end of a way to an engine takes a number of bytes and then no more. A line goes there in
two parts, its text and its line feed, through a store that may be flushed in between, or past the
store if the text is long; and what was not taken stays in the store. `lines_in_order`: what gets
through is still the beginning of the lines that were to be sent, as long as there is room for it; a
line that does not fit as a whole is a failure that touches nothing else; and after the way has been
closed nothing happens any more.

1. Each operation on a way carries bytes (`Transfer.Carries`): everything got through or is held back
   in its order, or the other end is full and the first bytes got through. This goes on from one
   operation to the next (`Transfer.Carries.andThen`) up to the flush that ends a line
   (`Pipe.sendLine_cases`).
2. So a way that lines were sent on has room for what is left of the first bytes, and holds nothing
   back, or it is full (`Pipe.Spent`); a line keeps this (`Pipe.Spent.sendLine`).
3. The same holds of a client through any acts until it is closed (`Client.Stands`), and what the acts
   send is what the lines on the way say (`Client.Stands.perform`).
-/

namespace EngineDuel.Wire

/-! ## Room -/

/-- There is room for so many bytes. -/
def Fits (room : Option ℕ) (n : ℕ) : Prop := ∀ m ∈ room, n ≤ m

/-- The first bytes, as many as there is room for. -/
def firstBytes (room : Option ℕ) (bytes : List UInt8) : List UInt8 :=
  match room with
  | none => bytes
  | some n => bytes.take n

section Room

variable {room : Option ℕ} {n m : ℕ} {bytes more : List UInt8}

theorem not_fits_iff : ¬ Fits room n ↔ ∃ m, room = some m ∧ m < n := by
  cases room <;> simp [Fits]

theorem fits_sub (h : Fits room n) : Fits (room.map (· - n)) m ↔ Fits room (n + m) := by
  cases room with
  | none => simp [Fits]
  | some k =>
    have hk : n ≤ k := h k rfl
    simp only [Fits, Option.map_some, Option.mem_def, Option.some.injEq, forall_eq']
    omega

theorem fits_zero (room : Option ℕ) : Fits room 0 := fun n _ => n.zero_le

/-- Room that is used up in two steps. -/
theorem sub_room (room : Option ℕ) (n m : ℕ) :
    (room.map (· - n)).map (· - m) = room.map (· - (n + m)) := by
  rw [Option.map_map]
  congr 1
  funext k
  exact Nat.sub_sub k n m

theorem Fits.mono (h : Fits room n) (hle : m ≤ n) : Fits room m :=
  fun k hk => hle.trans (h k hk)

theorem firstBytes_of_fits (h : Fits room bytes.length) : firstBytes room bytes = bytes := by
  cases room with
  | none => rfl
  | some n => exact List.take_of_length_le (h n rfl)

@[simp] theorem firstBytes_nil (room : Option ℕ) : firstBytes room [] = [] :=
  firstBytes_of_fits (fits_zero room)

/-- If there is no room for some bytes, those after them do not matter. -/
theorem firstBytes_append (h : ¬ Fits room bytes.length) (more : List UInt8) :
    firstBytes room (bytes ++ more) = firstBytes room bytes := by
  obtain ⟨n, rfl, hn⟩ := not_fits_iff.mp h
  exact List.take_append_of_le_length hn.le

/-- What is left of the room after some bytes is for those after them. -/
theorem append_firstBytes (h : Fits room bytes.length) :
    bytes ++ firstBytes (room.map (· - bytes.length)) more = firstBytes room (bytes ++ more) := by
  cases room with
  | none => rfl
  | some n =>
    have hn : bytes.length ≤ n := h n rfl
    simp only [firstBytes, Option.map_some, List.take_append, List.take_of_length_le hn]

end Room

/-! ## Operations on a way -/

/-- What a transfer on `p` did with what was held back and `bytes` after it. -/
inductive Transfer.Carries (p : Pipe) (bytes : List UInt8) : Transfer → Prop where
  /-- Everything got through or is held back. -/
  | whole {delivered : List UInt8} {q : Pipe} (heq : delivered ++ q.held = p.held ++ bytes)
      (hfits : Fits p.room delivered.length) (hroom : q.room = p.room.map (· - delivered.length))
      (hfault : q.fault = p.fault) : Carries p bytes ⟨delivered, true, q⟩
  /-- The other end is full. -/
  | full {q : Pipe} (hfits : ¬ Fits p.room (p.held ++ bytes).length) (hroom : q.room = some 0)
      (hfault : q.fault = p.fault) :
      Carries p bytes ⟨firstBytes p.room (p.held ++ bytes), false, q⟩

/-- One operation after another carries what both carry. -/
theorem Transfer.Carries.andThen {p : Pipe} {bytes more : List UInt8} {t : Transfer}
    {next : Pipe → Transfer} (h : t.Carries p bytes)
    (hnext : t.ok = true → (next t.pipe).Carries t.pipe more) :
    (t.andThen next).Carries p (bytes ++ more) := by
  cases h with
  | full hfits hroom hfault =>
    have hmore := firstBytes_append hfits more
    rw [List.append_assoc] at hmore
    rw [← hmore]
    refine .full (fun hall => hfits (hall.mono ?_)) hroom hfault
    simp only [List.length_append]
    omega
  | @whole delivered q heq hfits hroom hfault =>
    have hall : delivered ++ (q.held ++ more) = p.held ++ (bytes ++ more) := by
      rw [← List.append_assoc, heq, List.append_assoc]
    simp only [Transfer.andThen, if_true]
    have hthen := hnext rfl
    revert hthen
    generalize next q = u
    intro hthen
    cases hthen with
    | @whole delivered' q' heq' hfits' hroom' hfault' =>
      rw [hroom, fits_sub hfits] at hfits'
      refine .whole ?_ ?_ ?_ (hfault'.trans hfault)
      · rw [List.append_assoc, heq', hall]
      · rwa [List.length_append]
      · rw [hroom', hroom, sub_room, List.length_append]
    | full hfits' hroom' hfault' =>
      rw [hroom, fits_sub hfits, ← List.length_append, hall] at hfits'
      rw [hroom, append_firstBytes hfits, hall]
      exact .full hfits' hroom' (hfault'.trans hfault)

namespace Pipe

variable {p : Pipe}

/-- What the other end takes are the first bytes. -/
theorem take_taken (p : Pipe) (bytes : List UInt8) :
    bytes.take (p.taken bytes) = firstBytes p.room bytes := by
  unfold taken firstBytes
  cases p.room with
  | none => exact List.take_length
  | some n => exact List.take_eq_take_min.symm

theorem taken_eq_length_iff {bytes : List UInt8} :
    p.taken bytes = bytes.length ↔ Fits p.room bytes.length := by
  unfold taken Fits
  cases p.room with
  | none => simp
  | some n =>
    simp only [Option.mem_def, Option.some.injEq, forall_eq']
    omega

/-- An end that has not taken everything is full. -/
theorem room_afterTaking {bytes : List UInt8} (h : ¬ Fits p.room bytes.length) :
    (p.afterTaking (p.taken bytes)).room = some 0 := by
  obtain ⟨n, hroom, hn⟩ := not_fits_iff.mp h
  simp only [afterTaking, taken, hroom, Option.map_some, Option.some.injEq]
  omega

/-- A flush, if there is room for what is held back. -/
theorem flush_of_fits (h : Fits p.room p.held.length) :
    p.flush = ⟨p.held, true, ⟨p.room.map (· - p.held.length), [], p.fault⟩⟩ := by
  simp [flush, taken_eq_length_iff.mpr h, afterTaking]

/-- A flush, if there is no room for what is held back. -/
theorem flush_of_not_fits (h : ¬ Fits p.room p.held.length) :
    ∃ held, p.flush = ⟨firstBytes p.room p.held, false, ⟨some 0, held, p.fault⟩⟩ := by
  have hne : (p.taken p.held == p.held.length) = false := by
    simpa using mt taken_eq_length_iff.mp h
  refine ⟨p.held.drop (p.taken p.held), ?_⟩
  rw [← room_afterTaking h, ← take_taken, ← hne]
  rfl

theorem carries_flush (p : Pipe) : p.flush.Carries p [] := by
  by_cases h : Fits p.room p.held.length
  · rw [flush_of_fits h]
    exact .whole (by simp) h rfl rfl
  · obtain ⟨held, hflush⟩ := flush_of_not_fits h
    rw [hflush]
    rw [← List.append_nil p.held] at h ⊢
    exact .full h rfl rfl

/-- Past an empty store. -/
theorem carries_offer (h : p.held = []) (bytes : List UInt8) : (p.offer bytes).Carries p bytes := by
  by_cases hfits : Fits p.room bytes.length
  · have hoffer : p.offer bytes = ⟨bytes, true, p.afterTaking bytes.length⟩ := by
      simp [offer, taken_eq_length_iff.mpr hfits]
    rw [hoffer]
    exact .whole (by simp [afterTaking, h]) hfits rfl rfl
  · have hne : (p.taken bytes == bytes.length) = false := by
      simpa using mt taken_eq_length_iff.mp hfits
    have hoffer : p.offer bytes =
        ⟨firstBytes p.room (p.held ++ bytes), false, p.afterTaking (p.taken bytes)⟩ := by
      rw [h, List.nil_append, ← take_taken, ← hne]
      rfl
    rw [hoffer]
    refine .full ?_ (room_afterTaking hfits) rfl
    rwa [h, List.nil_append]

theorem carries_put (p : Pipe) (bytes : List UInt8) : (p.put bytes).Carries p bytes := by
  -- the store is empty wherever the bytes go past it
  have hkeep (q : Pipe) (hq : bytes.length < capacity ∨ q.held = []) : Transfer.Carries q bytes
      (if bytes.length < capacity then ⟨[], true, { q with held := q.held ++ bytes }⟩
      else q.offer bytes) := by
    by_cases hshort : bytes.length < capacity
    · rw [if_pos hshort]
      exact .whole rfl (fits_zero _) (by simp) rfl
    · rw [if_neg hshort]
      exact carries_offer (hq.resolve_left hshort) bytes
  by_cases hfits : p.held.length + bytes.length ≤ capacity
  · simp only [put, if_pos hfits]
    refine hkeep p ?_
    by_cases hshort : bytes.length < capacity
    · exact .inl hshort
    · exact .inr (List.length_eq_zero_iff.mp (by omega))
  · simp only [put, if_neg hfits]
    refine (carries_flush p).andThen fun hok => hkeep _ (.inr ?_)
    by_cases h : Fits p.room p.held.length
    · rw [flush_of_fits h]
    · obtain ⟨held, hflush⟩ := flush_of_not_fits h
      rw [hflush] at hok
      cases hok

/-- **A line on its way.** If there is room for what is held back and the line, all of it gets through
and nothing is held back; else its first bytes do, and there is no room any more. -/
theorem sendLine_cases (p : Pipe) (line : String) :
    (Fits p.room (p.held ++ lineBytes line).length ∧
      p.sendLine line = ⟨p.held ++ lineBytes line, true,
        ⟨p.room.map (· - (p.held ++ lineBytes line).length), [], p.fault⟩⟩) ∨
    (¬ Fits p.room (p.held ++ lineBytes line).length ∧
      ∃ held, p.sendLine line =
        ⟨firstBytes p.room (p.held ++ lineBytes line), false, ⟨some 0, held, p.fault⟩⟩) := by
  have hparts : Transfer.Carries p (lineBytes line)
      ((p.put (Text.encode line)).andThen fun q => q.put [Text.lineFeed]) :=
    (carries_put p _).andThen fun _ => carries_put _ _
  unfold sendLine
  revert hparts
  generalize (p.put (Text.encode line)).andThen (fun q => q.put [Text.lineFeed]) = t
  intro hparts
  cases hparts with
  | @full q hfits hroom hfault =>
    obtain ⟨room, held, fault⟩ := q
    cases hroom
    cases hfault
    exact .inr ⟨hfits, held, rfl⟩
  | @whole delivered q heq hfits hroom hfault =>
    have hflush : Fits q.room q.held.length ↔ Fits p.room (p.held ++ lineBytes line).length := by
      rw [hroom, fits_sub hfits, ← List.length_append, heq]
    by_cases hall : Fits p.room (p.held ++ lineBytes line).length
    · refine .inl ⟨hall, ?_⟩
      have hleft : q.room.map (· - q.held.length) =
          p.room.map (· - (p.held ++ lineBytes line).length) := by
        rw [hroom, sub_room, ← heq, List.length_append]
      simp only [Transfer.andThen, if_true, flush_of_fits (hflush.mpr hall), heq, hleft, hfault]
    · obtain ⟨held, hheld⟩ := flush_of_not_fits (mt hflush.mp hall)
      refine .inr ⟨hall, held, ?_⟩
      simp only [Transfer.andThen, if_true, hheld, hfault]
      rw [hroom, append_firstBytes hfits, heq]

/-! ## Lines one after another -/

/-- The way after lines with these bytes on a way with this room. -/
structure Spent (p : Pipe) (room : Option ℕ) (bytes : List UInt8) : Prop where
  /-- As long as everything has got through, the rest of the room is left. -/
  free : Fits room bytes.length → p.held = [] ∧ p.room = room.map (· - bytes.length)
  full : ¬ Fits room bytes.length → p.room = some 0

theorem lineBytes_ne_nil (line : String) : lineBytes line ≠ [] := by
  simp [lineBytes]

/-- One more line. -/
theorem Spent.sendLine {room : Option ℕ} {bytes : List UInt8} (h : p.Spent room bytes)
    (line : String) :
    ((p.sendLine line).ok = true ↔ Fits room (bytes ++ lineBytes line).length) ∧
      firstBytes room bytes ++ (p.sendLine line).delivered =
        firstBytes room (bytes ++ lineBytes line) ∧
      (p.sendLine line).pipe.fault = p.fault ∧
      (p.sendLine line).pipe.Spent room (bytes ++ lineBytes line) := by
  by_cases hfits : Fits room bytes.length
  · obtain ⟨hheld, hroom⟩ := h.free hfits
    have hiff : Fits p.room (p.held ++ lineBytes line).length ↔
        Fits room (bytes ++ lineBytes line).length := by
      rw [hheld, List.nil_append, hroom, fits_sub hfits, List.length_append]
    have hfirst : firstBytes room bytes ++ firstBytes p.room (p.held ++ lineBytes line) =
        firstBytes room (bytes ++ lineBytes line) := by
      rw [firstBytes_of_fits hfits, hheld, List.nil_append, hroom, append_firstBytes hfits]
    rcases p.sendLine_cases line with ⟨hline, hsend⟩ | ⟨hline, held, hsend⟩
    · rw [hsend]
      rw [firstBytes_of_fits hline] at hfirst
      refine ⟨⟨fun _ => hiff.mp hline, fun _ => rfl⟩, hfirst, rfl, fun _ => ⟨rfl, ?_⟩,
        fun hnot => absurd (hiff.mp hline) hnot⟩
      show p.room.map _ = _
      rw [hroom, sub_room, hheld, List.nil_append, List.length_append]
    · rw [hsend]
      exact ⟨⟨nofun, fun hall => absurd (hiff.mpr hall) hline⟩, hfirst, rfl,
        fun hall => absurd (hiff.mpr hall) hline, fun _ => rfl⟩
  · have hroom := h.full hfits
    have hnot : ¬ Fits room (bytes ++ lineBytes line).length :=
      fun hall => hfits (hall.mono (by simp))
    rcases p.sendLine_cases line with ⟨hline, -⟩ | ⟨-, held, hsend⟩
    · -- there is no room for a line feed
      have hzero := hline 0 hroom
      have hpos := List.length_pos_iff.mpr (lineBytes_ne_nil line)
      rw [List.length_append] at hzero
      omega
    · rw [hsend]
      refine ⟨⟨nofun, fun hall => absurd hall hnot⟩, ?_, rfl, fun hall => absurd hall hnot,
        fun _ => rfl⟩
      show firstBytes room bytes ++ firstBytes p.room _ = _
      rw [hroom, firstBytes_append hfits]
      exact List.append_nil _

/-- Nothing of the lines is left for a last flush. -/
theorem Spent.flush {room : Option ℕ} {bytes : List UInt8} (h : p.Spent room bytes) :
    p.flush.delivered = [] := by
  show p.held.take (p.taken p.held) = []
  by_cases hfits : Fits room bytes.length
  · rw [(h.free hfits).1, List.take_nil]
  · have htaken : p.taken p.held = 0 := by
      simp [taken, h.full hfits]
    rw [htaken, List.take_zero]

end Pipe

/-! ## Clients -/

/-- Something that is done with a client. -/
inductive Act where
  /-- A command is sent and its reply is waited for. -/
  | request (command : String) (limit : Option Duration)
  /-- A line is sent. -/
  | send (line : String)
  | close
  /-- Lines arrive from the engine. -/
  | arrive (lines : List Incoming)
  /-- The output of the engine ends. -/
  | endOutput
  deriving DecidableEq, Repr

namespace Act

/-- The line that an act is to send. -/
def line? : Act → Option String
  | request line _ => some line
  | send line => some line
  | _ => none

/-- The bytes that an act is to send. -/
def bytes (act : Act) : List UInt8 := act.line?.elim [] lineBytes

end Act

/-- The bytes of the lines that some acts are to send before the client is closed. -/
def written (acts : List Act) : List UInt8 := (acts.takeWhile (· ≠ .close)).flatMap Act.bytes

theorem written_cons {act : Act} (h : act ≠ .close) (acts : List Act) :
    written (act :: acts) = act.bytes ++ written acts := by
  simp [written, h]

theorem written_append {acts : List Act} (h : .close ∉ acts) (more : List Act) :
    written (acts ++ more) = written acts ++ written more := by
  have hopen : ∀ act ∈ acts, decide (act ≠ .close) = true := fun act hact =>
    decide_eq_true fun heq => h (heq ▸ hact)
  rw [written, List.takeWhile_append_of_pos hopen, List.flatMap_append, written,
    List.takeWhile_eq_self_iff.mpr hopen, written]

/-- What an act brought. -/
structure Effect where
  /-- How a request ended, or the sending of a line. -/
  result : Except LinkError (Option String) := .ok none
  /-- The remarks that were shown. -/
  remarks : List String := []
  /-- The bytes that got through to the engine. -/
  delivered : List UInt8 := []
  client : Client

/-- With this result a line was sent, whatever came of it. -/
def WasSent (result : Except LinkError (Option String)) : Prop :=
  (∀ message, result ≠ .error (.broken message)) ∧ ∀ label, result ≠ .error (.terminated label)

namespace Client

/-- Does something with a client. -/
def perform (c : Client) : Act → Effect
  | .request command limit =>
    let (exchange, delivered, client) := c.request command limit
    { result := exchange.result, remarks := exchange.diagnostics, delivered, client }
  | .send line =>
    let s := c.send line
    { result := s.result.map fun _ => none, delivered := s.delivered, client := s.client }
  | .close => { delivered := c.close.1, client := c.close.2 }
  | .arrive lines => { client := c.receive lines }
  | .endOutput => { client := c.endOutput }

/-- The client after some acts. -/
def afterActs : Client → List Act → Client
  | c, [] => c
  | c, act :: acts => (c.perform act).client.afterActs acts

/-- The bytes that get through by some acts. -/
def deliveredBy : Client → List Act → List UInt8
  | _, [] => []
  | c, act :: acts => (c.perform act).delivered ++ (c.perform act).client.deliveredBy acts

theorem afterActs_append (c : Client) (acts more : List Act) :
    c.afterActs (acts ++ more) = (c.afterActs acts).afterActs more := by
  induction acts generalizing c with
  | nil => rfl
  | cons act acts ih => exact ih _

theorem deliveredBy_append (c : Client) (acts more : List Act) :
    c.deliveredBy (acts ++ more) = c.deliveredBy acts ++ (c.afterActs acts).deliveredBy more := by
  induction acts generalizing c with
  | nil => rfl
  | cons act acts ih => rw [List.cons_append, deliveredBy, ih, deliveredBy, afterActs, List.append_assoc]

variable {c : Client} {label fault : String} {room : Option ℕ} {bytes : List UInt8} {act : Act}

/-- A client that waits for a reply has sent its command. -/
theorem wasSent_await (c : Client) (command : String) (limit : Option Duration) :
    WasSent (c.await command limit).1.result := by
  show WasSent ((Inbox.awaitReply c.label c.inbox.ended c.inbox.queue limit).result.mapError
    (failure c.label command limit))
  cases (Inbox.awaitReply c.label c.inbox.ended c.inbox.queue limit).result with
  | ok answer => constructor <;> intro _ h <;> cases h
  | error missing => cases missing <;> constructor <;> intro _ h <;> cases h

theorem perform_request_of_ok {command : String} {limit : Option Duration}
    (h : (c.send command).result = .ok ()) :
    c.perform (.request command limit) =
      let reply := (c.send command).client.await command (c.limitOf limit)
      { result := reply.1.result
        remarks := reply.1.diagnostics
        delivered := (c.send command).delivered
        client := reply.2 } := by
  rw [perform, request_of_ok h]

theorem perform_request_of_error {command : String} {limit : Option Duration} {e : LinkError}
    (h : (c.send command).result = .error e) :
    c.perform (.request command limit) =
      { result := .error e
        delivered := (c.send command).delivered
        client := (c.send command).client } := by
  rw [perform, request_of_error h]

/-- An open client with this label, on a way with this room on which lines with these bytes were
sent. -/
structure Stands (c : Client) (label fault : String) (room : Option ℕ) (bytes : List UInt8) :
    Prop where
  label_eq : c.label = label
  way : ∃ pipe, c.pipe = some pipe ∧ pipe.fault = fault ∧ pipe.Spent room bytes

/-- One more line: it is sent if there is room for it, and otherwise that is a failure. -/
theorem Stands.send (h : c.Stands label fault room bytes) (line : String) :
    ((Fits room (bytes ++ lineBytes line).length ∧ (c.send line).result = .ok ()) ∨
        (¬ Fits room (bytes ++ lineBytes line).length ∧
          (c.send line).result = .error (.broken fault))) ∧
      firstBytes room bytes ++ (c.send line).delivered = firstBytes room (bytes ++ lineBytes line) ∧
      (c.send line).client.Stands label fault room (bytes ++ lineBytes line) ∧
      (c.send line).client.inbox = c.inbox := by
  obtain ⟨rfl, pipe, hpipe, rfl, hspent⟩ := h
  obtain ⟨hok, hdelivered, hfault, hspent'⟩ := hspent.sendLine line
  have hsend : c.send line =
      { result := if (pipe.sendLine line).ok then .ok () else .error (.broken pipe.fault)
        delivered := (pipe.sendLine line).delivered
        log := [⟨.debug, c.label ++ " <- " ++ line⟩]
        client := { c with pipe := some (pipe.sendLine line).pipe } } := by
    simp only [Client.send, hpipe]
  rw [hsend]
  refine ⟨?_, hdelivered, ⟨rfl, _, rfl, hfault, hspent'⟩, rfl⟩
  by_cases hfits : Fits room (bytes ++ lineBytes line).length
  · exact .inl ⟨hfits, if_pos (hok.mpr hfits)⟩
  · exact .inr ⟨hfits, if_neg (mt hok.mp hfits)⟩

/-- What is done with an open client, but for closing it: a line is sent if there is room for it,
and otherwise that is a failure that touches nothing else. -/
theorem Stands.perform (h : c.Stands label fault room bytes) (hact : act ≠ .close) :
    firstBytes room bytes ++ (c.perform act).delivered = firstBytes room (bytes ++ act.bytes) ∧
      (c.perform act).client.Stands label fault room (bytes ++ act.bytes) ∧
      ∀ line, act.line? = some line →
        (WasSent (c.perform act).result ↔ Fits room (bytes ++ act.bytes).length) ∧
        (¬ Fits room (bytes ++ act.bytes).length →
          (c.perform act).result = .error (.broken fault) ∧ (c.perform act).remarks = [] ∧
            (c.perform act).client.inbox = c.inbox) := by
  cases act with
  | request line limit =>
    obtain ⟨hresult, hdelivered, hstands, hinbox⟩ := h.send line
    rcases hresult with ⟨hfits, hresult⟩ | ⟨hfits, hresult⟩
    · rw [perform_request_of_ok hresult]
      exact ⟨hdelivered, ⟨hstands.label_eq, hstands.way⟩, fun _ _ =>
        ⟨⟨fun _ => hfits, fun _ => wasSent_await _ _ _⟩, fun hnot => absurd hfits hnot⟩⟩
    · rw [perform_request_of_error hresult]
      exact ⟨hdelivered, hstands, fun _ _ =>
        ⟨⟨fun hsent => absurd rfl (hsent.1 fault), fun hall => absurd hall hfits⟩,
          fun _ => ⟨rfl, rfl, hinbox⟩⟩⟩
  | send line =>
    obtain ⟨hresult, hdelivered, hstands, hinbox⟩ := h.send line
    refine ⟨hdelivered, hstands, fun _ _ => ?_⟩
    show (WasSent ((c.send line).result.map fun _ => none) ↔ _) ∧ (_ → (c.send line).result.map _ = _ ∧ _)
    rcases hresult with ⟨hfits, hresult⟩ | ⟨hfits, hresult⟩
    · rw [hresult]
      refine ⟨⟨fun _ => hfits, fun _ => ?_⟩, fun hnot => absurd hfits hnot⟩
      constructor <;> intro _ h <;> cases h
    · rw [hresult]
      exact ⟨⟨fun hsent => absurd rfl (hsent.1 fault), fun hall => absurd hall hfits⟩,
        fun _ => ⟨rfl, rfl, hinbox⟩⟩
  | close => exact absurd rfl hact
  | arrive lines =>
    have hbytes : bytes ++ (Act.arrive lines).bytes = bytes := List.append_nil _
    rw [hbytes]
    exact ⟨List.append_nil _, ⟨h.label_eq, h.way⟩, fun _ => nofun⟩
  | endOutput =>
    have hbytes : bytes ++ Act.endOutput.bytes = bytes := List.append_nil _
    rw [hbytes]
    exact ⟨List.append_nil _, ⟨h.label_eq, h.way⟩, fun _ => nofun⟩

/-- Nothing is left for closing a client to send. -/
theorem Stands.close (h : c.Stands label fault room bytes) :
    c.perform .close = { client := { c with pipe := none } } := by
  obtain ⟨-, pipe, hpipe, -, hspent⟩ := h
  simp only [Client.perform, Client.close, hpipe, hspent.flush]

/-- **Open acts.** Up to its being closed a client sends the lines of its acts. -/
theorem Stands.after (h : c.Stands label fault room bytes) {acts : List Act}
    (hacts : .close ∉ acts) :
    firstBytes room bytes ++ c.deliveredBy acts = firstBytes room (bytes ++ written acts) ∧
      (c.afterActs acts).Stands label fault room (bytes ++ written acts) := by
  induction acts generalizing c bytes with
  | nil =>
    have hbytes : bytes ++ written [] = bytes := List.append_nil _
    rw [hbytes]
    exact ⟨List.append_nil _, h⟩
  | cons act acts ih =>
    obtain ⟨hact, hrest⟩ := not_or.mp (mt List.mem_cons.mpr hacts)
    obtain ⟨hdelivered, hstands, -⟩ := h.perform (Ne.symm hact)
    obtain ⟨hlater, hafter⟩ := ih hstands hrest
    rw [written_cons (Ne.symm hact), ← List.append_assoc]
    refine ⟨?_, hafter⟩
    rw [deliveredBy, ← List.append_assoc, hdelivered, hlater]

/-! ## Closed clients -/

/-- Nothing comes of a line for a closed client. -/
theorem perform_closed (h : c.pipe = none) {line : String} (hline : act.line? = some line) :
    c.perform act = { result := .error (.terminated c.label), client := c } := by
  cases act with
  | request line limit => simp only [perform, request, Sending.thenAwait, send, h]
  | send line =>
    simp only [perform, send, h]
    rfl
  | close => cases hline
  | arrive lines => cases hline
  | endOutput => cases hline

/-- A closed client stays closed, and nothing gets through to its engine. -/
theorem after_closed (h : c.pipe = none) (acts : List Act) :
    c.deliveredBy acts = [] ∧ (c.afterActs acts).pipe = none ∧ (c.afterActs acts).label = c.label := by
  induction acts generalizing c with
  | nil => exact ⟨rfl, h, rfl⟩
  | cons act acts ih =>
    have hstep : (c.perform act).delivered = [] ∧ (c.perform act).client.pipe = none ∧
        (c.perform act).client.label = c.label := by
      cases act with
      | request line limit =>
        rw [perform_closed h rfl]
        exact ⟨rfl, h, rfl⟩
      | send line =>
        rw [perform_closed h rfl]
        exact ⟨rfl, h, rfl⟩
      | close =>
        have hclose : c.close = ([], c) := by simp only [close, h]
        rw [show c.perform .close = { delivered := c.close.1, client := c.close.2 } from rfl, hclose]
        exact ⟨rfl, h, rfl⟩
      | arrive lines => exact ⟨rfl, h, rfl⟩
      | endOutput => exact ⟨rfl, h, rfl⟩
    obtain ⟨hdelivered, hpipe, hlabel⟩ := hstep
    obtain ⟨hnone, hclosed, hsame⟩ := ih hpipe
    rw [deliveredBy, afterActs, hdelivered, hnone, hsame, hlabel]
    exact ⟨rfl, hclosed, rfl⟩

end Client

/-! ## All acts -/

/-- What becomes of the lines of some acts on a way with this room, and of one act more. -/
structure SendsInOrder (c : Client) (room : Option ℕ) (fault : String) (acts : List Act) : Prop where
  /-- The bytes that got through are the first of the lines, as many as there is room for. -/
  delivered_eq : c.deliveredBy acts = firstBytes room (written acts)
  /-- As long as the client is open, a line is sent exactly if there is room for all lines up to
  it. -/
  wasSent_iff : .close ∉ acts → ∀ act line, act.line? = some line →
    (WasSent ((c.afterActs acts).perform act).result ↔ Fits room (written (acts ++ [act])).length)
  /-- Else that is a failure, no line of the engine is read, and nothing is shown. -/
  failed : .close ∉ acts → ∀ act line, act.line? = some line →
    ¬ Fits room (written (acts ++ [act])).length →
    ((c.afterActs acts).perform act).result = .error (.broken fault) ∧
      ((c.afterActs acts).perform act).remarks = [] ∧
      ((c.afterActs acts).perform act).client.inbox = (c.afterActs acts).inbox
  /-- Once it has been closed, the client says so, and nothing comes of any line. -/
  closed : .close ∈ acts → (c.afterActs acts).isClosed = true ∧
    ∀ act line, act.line? = some line → (c.afterActs acts).perform act =
      { result := .error (.terminated c.label), client := c.afterActs acts }

theorem Client.stands_fresh (c : Client) (room : Option ℕ) (fault : String) :
    Client.Stands { c with pipe := some { room, fault } } c.label fault room [] := by
  refine ⟨rfl, { room, fault }, rfl, rfl, fun _ => ⟨rfl, ?_⟩, fun hnot => absurd (fits_zero room) hnot⟩
  simp

/-- **Lines get through in their order**, up to the byte where the other end is full. -/
theorem lines_in_order (c : Client) (room : Option ℕ) (fault : String) (acts : List Act) :
    SendsInOrder { c with pipe := some { room, fault } } room fault acts := by
  have hfresh := c.stands_fresh room fault
  generalize hstart : { c with pipe := some { room, fault } : Client } = start at hfresh
  by_cases hclose : .close ∈ acts
  · obtain ⟨before, after, rfl, hbefore⟩ := List.eq_append_cons_of_mem hclose
    obtain ⟨hdelivered, hstands⟩ := hfresh.after hbefore
    have hstep := hstands.close
    obtain ⟨hnone, hclosed, hlabel⟩ := Client.after_closed
      (c := { start.afterActs before with pipe := none }) rfl after
    have hafter : start.afterActs (before ++ .close :: after) =
        Client.afterActs { start.afterActs before with pipe := none } after := by
      rw [Client.afterActs_append, Client.afterActs, hstep]
    have hwritten : written (before ++ .close :: after) = written before := by
      rw [written_append hbefore]
      exact List.append_nil _
    refine ⟨?_, fun h => absurd hclose h, fun h => absurd hclose h, fun _ => ⟨?_, ?_⟩⟩
    · rw [Client.deliveredBy_append, Client.deliveredBy, hstep, hnone, hwritten]
      simpa using hdelivered
    · rw [hafter, Client.isClosed, hclosed]
      rfl
    · intro act line hline
      have hsame : (start.afterActs before).label = start.label := by
        rw [hstands.label_eq, ← hstart]
      rw [hafter, Client.perform_closed hclosed hline, hlabel, ← hsame]
  · obtain ⟨hdelivered, hstands⟩ := hfresh.after hclose
    have hmore : ∀ act line, act.line? = some line → act ≠ .close ∧
        written (acts ++ [act]) = [] ++ written acts ++ act.bytes := by
      intro act line hline
      have hact : act ≠ .close := by
        rintro rfl
        cases hline
      refine ⟨hact, ?_⟩
      rw [written_append hclose, written_cons hact]
      simp [written]
    refine ⟨by simpa using hdelivered, fun _ act line hline => ?_, fun _ act line hline => ?_,
      fun h => absurd h hclose⟩
    · obtain ⟨hact, hwritten⟩ := hmore act line hline
      rw [hwritten]
      exact ((hstands.perform hact).2.2 line hline).1
    · obtain ⟨hact, hwritten⟩ := hmore act line hline
      rw [hwritten]
      exact ((hstands.perform hact).2.2 line hline).2

/-- There is room for four bytes: the second line breaks off, and the rest of it never gets through. -/
example :
    Client.deliveredBy
      { label := "engine", pipe := some { room := some 4, fault := "" }, inbox := { ended := true } }
      [.send "ab", .request "cd" none, .send "e", .close, .send "f"] = Text.encode "ab\nc" := by
  decide +kernel

end EngineDuel.Wire

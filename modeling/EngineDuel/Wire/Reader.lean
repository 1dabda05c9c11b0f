import EngineDuel.Wire.Client

/-!
# Reading an engine's output

An engine writes bytes. A reader works through them on its own, line by line, and passes each line on
to the queue of a client; it stops at the end, and at the first line that is not UTF-8. The client takes
the lines in order and blocks where too few have come yet.

How far the reader gets of its own accord is nothing that the client can tell, so a `Reception` is
given the number of steps that it takes before the client looks at its queue (`paces`). All requests
wait without a limit.
-/

namespace EngineDuel.Wire

/-! ## One line -/

/-- Bytes up to the first line feed, together with it, and the bytes behind it. -/
def cutLine : List UInt8 → List UInt8 × List UInt8
  | [] => ([], [])
  | b :: rest =>
    if b = Text.lineFeed then ([b], rest)
    else
      let (line, rest) := cutLine rest
      (b :: line, rest)

/-- A line without the line feed at its end and without one carriage return right before that. -/
def chomp (line : List Char) : List Char :=
  if line.getLast? = some '\n' then
    let line := line.dropLast
    if line.getLast? = some '\r' then line.dropLast else line
  else line

/-- The first line of some bytes and the bytes behind it, unless there are none or the line is not
UTF-8. -/
def readLine? (bytes : List UInt8) : Option (String × List UInt8) :=
  if bytes.isEmpty then none
  else
    let (line, rest) := cutLine bytes
    (Text.decode? line).map fun text => (String.ofList (chomp text.toList), rest)

theorem length_cutLine_lt {bytes : List UInt8} (h : bytes.isEmpty = false) :
    (cutLine bytes).2.length < bytes.length := by
  induction bytes with
  | nil => cases h
  | cons b rest ih =>
    unfold cutLine
    split
    · exact Nat.lt_succ_self _
    · cases rest with
      | nil => exact Nat.lt_succ_self _
      | cons c rest => exact Nat.lt_succ_of_lt (ih rfl)

/-! ## The reader and the client -/

/-- A client whose lines are read from bytes. It has no limit of its own. -/
structure Reception where
  label : String
  /-- The way to the engine, until it is closed. -/
  pipe : Option Pipe
  /-- The lines that wait; their output has ended when the reader has stopped. -/
  inbox : Inbox := { ended := false }
  /-- The bytes that have not been read yet. -/
  unread : List UInt8
  /-- How many steps the reader takes of its own accord before each look at the lines that wait. -/
  paces : List Nat := []

namespace Reception

/-- The client with the lines that have come. -/
def client (r : Reception) : Client := { label := r.label, pipe := r.pipe, inbox := r.inbox }

/-- The same with what a client did. -/
def withClient (r : Reception) (c : Client) : Reception := { r with pipe := c.pipe, inbox := c.inbox }

/-- A step of the reader: it passes a line on, or it stops, and that is the end of the output. -/
def readOn (r : Reception) : Reception :=
  if r.inbox.ended then r
  else
    match readLine? r.unread with
    | some (text, rest) => { r.withClient (r.client.receive [.line text]) with unread := rest }
    | none => r.withClient r.client.endOutput

/-- The steps that the reader takes of its own accord. -/
def readAhead (r : Reception) : Reception :=
  match r.paces with
  | [] => r
  | pace :: paces => Nat.repeat readOn pace { r with paces }

/-- How many steps the reader can still take at most: one for each byte, and the last. -/
def pending (r : Reception) : Nat := if r.inbox.ended then 0 else r.unread.length + 1

theorem pending_readOn_lt {r : Reception} (h : r.inbox.ended = false) :
    r.readOn.pending < r.pending := by
  unfold readOn pending
  simp only [h, Bool.false_eq_true, if_false]
  cases hread : readLine? r.unread with
  | none => exact Nat.succ_pos _
  | some found =>
    unfold readLine? at hread
    split at hread
    · cases hread
    · next hne =>
      have hlt := length_cutLine_lt (eq_false_of_ne_true hne)
      obtain ⟨text, -, rfl⟩ := Option.map_eq_some_iff.mp hread
      simp only [withClient, client, Client.receive, h, Bool.false_eq_true, if_false]
      omega

theorem pending_readOn_le (r : Reception) : r.readOn.pending ≤ r.pending := by
  cases h : r.inbox.ended with
  | false => exact Nat.le_of_lt (pending_readOn_lt h)
  | true =>
    have hstays : r.readOn = r := if_pos h
    exact Nat.le_of_eq (congrArg pending hstays)

theorem pending_readAhead_le (r : Reception) : r.readAhead.pending ≤ r.pending := by
  have hsteps (n : Nat) (r : Reception) : (Nat.repeat readOn n r).pending ≤ r.pending := by
    induction n with
    | zero => exact Nat.le_refl _
    | succ n ih => exact Nat.le_trans (pending_readOn_le _) ih
  unfold readAhead
  split
  · exact Nat.le_refl _
  · exact hsteps _ _

/-! ## Requests -/

/-- Waits for the reply to a command. The client blocks where the lines that wait are no whole reply
and more may come: then the reader goes on, and what waits is looked at again. -/
def await (r : Reception) (command : String) : Exchange × Reception :=
  let ahead := r.readAhead
  if h : ahead.client.isBlocked then
    have := pending_readOn_lt (Client.ended_of_isBlocked h)
    ahead.readOn.await command
  else
    let (exchange, client) := ahead.client.await command none
    (exchange, ahead.withClient client)
termination_by r.pending
decreasing_by exact Nat.lt_of_lt_of_le this r.pending_readAhead_le

/-- Sends a command and waits for its reply. Returns also the bytes that got through. -/
def request (r : Reception) (command : String) : Exchange × List UInt8 × Reception :=
  let s := r.client.send command
  s.thenAwait (r.withClient s.client) (·.await command)

/-- What some requests bring, and the bytes that get through. -/
def exchanges (r : Reception) : List String → List (Exchange × List UInt8)
  | [] => []
  | command :: commands =>
    let (exchange, sent, r') := r.request command
    (exchange, sent) :: r'.exchanges commands

end Reception

end EngineDuel.Wire

import EngineDuel.Duration
import EngineDuel.Log
import EngineDuel.Wire.Reply

/-!
# Lines from an engine

The lines of an engine wait in a queue, those of its output and those of its error output, with the
pauses that it makes between them. After the queue the output has ended, or the engine stays silent.

`Inbox.awaitReply` takes lines until a terminal unit is complete. A time limit is used up by pauses
only: a line that waits already is taken even when no time is left.
-/

namespace EngineDuel.Wire

/-- Something that comes from an engine. -/
inductive Incoming where
  /-- A line of its output. -/
  | line (text : String)
  /-- A line of its error output, which only the log shows. -/
  | errorLine (text : String)
  /-- Nothing comes for some time. -/
  | pause (length : Duration)
  deriving DecidableEq, Repr

/-- What an engine has sent and will send of its own accord. -/
structure Inbox where
  queue : List Incoming := []
  /-- Whether the output ends after the queue; otherwise the engine stays silent. -/
  ended : Bool
  deriving DecidableEq, Repr

/-- Why no reply was read. -/
inductive Missing where
  | refused (message : String)
  | ended
  | late
  /-- The engine stays silent and nothing limits the wait, which so does not end. -/
  | silent
  deriving DecidableEq, Repr

/-- What waiting for a reply brought. -/
structure Reading where
  result : Except Missing (Option String)
  remarks : List String := []
  log : List LogLine := []
  waited : Duration := .zero
  /-- What remains in the queue. -/
  rest : List Incoming

namespace Reading

/-- A log line before everything else. -/
def withLog (line : LogLine) (r : Reading) : Reading := { r with log := line :: r.log }

/-- A remark before everything else. -/
def withRemark (text : String) (r : Reading) : Reading := { r with remarks := text :: r.remarks }

/-- Time that passes before everything else. -/
def withWait (d : Duration) (r : Reading) : Reading := { r with waited := d + r.waited }

end Reading

namespace Inbox

/-- What a line of the output is in the log. -/
def lineNote (label text : String) : LogLine := ⟨.debug, label ++ " -> " ++ text⟩

/-- What a line of the error output is in the log. -/
def errorNote (label text : String) : LogLine := ⟨.debug, label ++ " (stderr) " ++ text⟩

/-- The lines of a stream so far, last first. -/
abbrev Stream := List (List Char)

/-- A stream with one more line, or its whole text if the line has the mark of the end. The text
before that mark is a line of its own unless it is empty. -/
def addToStream (lines : Stream) (line : List Char) : Stream ⊕ List Char :=
  if line.contains streamEnd then
    let last := line.takeWhile (· ≠ streamEnd)
    .inr (Text.join ['\n'] ((if last = [] then lines else last :: lines).reverse))
  else .inl (line :: lines)

/-- A stream after its first line, which does not count if it is empty. -/
def openStream (first : List Char) : Stream ⊕ List Char :=
  if first = [] then .inl [] else addToStream [] first

/-- A line of a stream without the carriage return at its end. -/
def streamLine (line : List Char) : List Char :=
  if line.getLast? = some '\r' then line.dropLast else line

/-- What is read when the queue is empty: the end, or silence, which uses up the limit if there is
one. -/
def atEnd (ended : Bool) (limit : Option Duration) : Reading :=
  match ended, limit with
  | true, _ => { result := .error .ended, rest := [] }
  | false, some d => { result := .error .late, waited := d, rest := [] }
  | false, none => { result := .error .silent, rest := [] }

/-- The limit that is left after a pause, or none if the pause is longer. -/
def afterPause (limit : Option Duration) (d : Duration) : Option (Option Duration) :=
  match limit with
  | none => some none
  | some l => if l.nanos < d.nanos then none else some (some ⟨l.nanos - d.nanos⟩)

/-- What is read when a pause is longer than the limit: the rest of the pause is still to come. -/
def tooLate (limit : Option Duration) (d : Duration) (rest : List Incoming) : Reading :=
  let l := limit.getD .zero
  { result := .error .late, waited := l, rest := .pause ⟨d.nanos - l.nanos⟩ :: rest }

/-- Takes lines until a stream is complete. -/
def awaitStreamEnd (label : String) (ended : Bool) :
    List Incoming → Option Duration → Stream → Reading
  | [], limit, _ => atEnd ended limit
  | .errorLine text :: rest, limit, lines =>
    (awaitStreamEnd label ended rest limit lines).withLog (errorNote label text)
  | .pause d :: rest, limit, lines =>
    match afterPause limit d with
    | some left => (awaitStreamEnd label ended rest left lines).withWait d
    | none => tooLate limit d rest
  | .line text :: rest, limit, lines =>
    Reading.withLog (lineNote label text) <|
      match addToStream lines (streamLine text.toList) with
      | .inr whole => { result := .ok (some (String.ofList whole)), rest }
      | .inl lines => awaitStreamEnd label ended rest limit lines

/-- Takes lines until a terminal unit is complete. -/
def awaitReply (label : String) (ended : Bool) : List Incoming → Option Duration → Reading
  | [], limit => atEnd ended limit
  | .errorLine text :: rest, limit =>
    (awaitReply label ended rest limit).withLog (errorNote label text)
  | .pause d :: rest, limit =>
    match afterPause limit d with
    | some left => (awaitReply label ended rest left).withWait d
    | none => tooLate limit d rest
  | .line text :: rest, limit =>
    Reading.withLog (lineNote label text) <|
      match Reply.ofLine text.toList with
      | .blank => awaitReply label ended rest limit
      | .remark remark => (awaitReply label ended rest limit).withRemark (String.ofList remark)
      | .done => { result := .ok none, rest }
      | .answer answer => { result := .ok (some (String.ofList answer)), rest }
      | .refusal message => { result := .error (.refused (String.ofList message)), rest }
      | .opening first =>
        match openStream first with
        | .inr whole => { result := .ok (some (String.ofList whole)), rest }
        | .inl lines => awaitStreamEnd label ended rest limit lines

/-! ### The end and silence -/

section

variable {label : String} {ended : Bool}

theorem awaitStreamEnd_result_ne (queue : List Incoming) (limit : Option Duration) (lines : Stream) :
    (awaitStreamEnd label ended queue limit lines).result ≠
      .error (if ended then .silent else .ended) := by
  induction queue generalizing limit lines with
  | nil => cases ended <;> cases limit <;> nofun
  | cons x rest ih =>
    cases x with
    | errorLine text => exact ih limit lines
    | pause d =>
      unfold awaitStreamEnd
      cases afterPause limit d with
      | some left => exact ih left lines
      | none => cases ended <;> nofun
    | line text =>
      unfold awaitStreamEnd
      cases addToStream lines (streamLine text.toList) with
      | inl lines => exact ih limit lines
      | inr whole => nofun

/-- An output that has ended is not silent, and silence is no end. -/
theorem awaitReply_result_ne (queue : List Incoming) (limit : Option Duration) :
    (awaitReply label ended queue limit).result ≠ .error (if ended then .silent else .ended) := by
  induction queue generalizing limit with
  | nil => cases ended <;> cases limit <;> nofun
  | cons x rest ih =>
    cases x with
    | errorLine text => exact ih limit
    | pause d =>
      unfold awaitReply
      cases afterPause limit d with
      | some left => exact ih left
      | none => cases ended <;> nofun
    | line text =>
      unfold awaitReply
      cases Reply.ofLine text.toList with
      | blank | remark => exact ih limit
      | done | answer => nofun
      | refusal => cases ended <;> nofun
      | opening first =>
        dsimp only
        cases openStream first with
        | inl lines => exact awaitStreamEnd_result_ne rest limit lines
        | inr whole => nofun

end

end Inbox

end EngineDuel.Wire

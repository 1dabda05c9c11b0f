import EngineDuel.Failure
import EngineDuel.Json.Decode
import EngineDuel.Number.Layout

/-!
# The range of a search

A search tries `start`, `start + step`, `start + 2 * step` and so on up to `end`. Each value is
computed from its number, so errors do not add up, and a value counts as reached if it exceeds `end`
by less than a small part of a step.
-/

namespace EngineDuel.Tuning

/-- The values that a search tries. -/
structure Range where
  start : Float
  step : Float
  stop : Float
  deriving Repr, Inhabited

/-- Why a range cannot be searched. -/
inductive RangeError where
  | notFinite (range : Range)
  | stepNotPositive (step : Float)
  | backwards (start stop : Float)
  | stepTooSmall (step start : Float)
  | tooMany (count : Float)

/-- The largest number of values after the start. -/
def maxCandidates : Nat := 100000

namespace Range

/-- A range as a message shows it. -/
def described (r : Range) : String :=
  "SearchRange \x7b start: " ++ Number.Layout.described.text r.start
    ++ ", step: " ++ Number.Layout.described.text r.step
    ++ ", end: " ++ Number.Layout.described.text r.stop ++ " \x7d"

end Range

/-- The text of a refused range. -/
def RangeError.message : RangeError → String
  | notFinite r => "search range must be finite: " ++ r.described
  | stepNotPositive step => "step must be positive (got " ++ Number.plain step ++ ")"
  | backwards start stop =>
    "end (" ++ Number.plain stop ++ ") must not be below start (" ++ Number.plain start ++ ")"
  | stepTooSmall step start =>
    "step " ++ Number.plain step ++ " is below the precision of start " ++ Number.plain start
  | tooMany count =>
    "range yields " ++ Number.plain count ++ " candidates (limit " ++ toString maxCandidates ++ ")"

namespace Range

/-- Whether a range can be searched. -/
def validate (r : Range) : Except RangeError Unit :=
  if !(r.start.isFinite && r.step.isFinite && r.stop.isFinite) then .error (.notFinite r)
  else if r.step ≤ 0.0 then .error (.stepNotPositive r.step)
  else if r.stop < r.start then .error (.backwards r.start r.stop)
  else if r.start + r.step == r.start then .error (.stepTooSmall r.step r.start)
  else
    let count := Number.floor ((r.stop - r.start) / r.step)
    if count > Float.ofNat maxCandidates then .error (.tooMany count) else .ok ()

/-- The value with a number. -/
def value (r : Range) (k : Nat) : Float := r.start + Float.ofNat k * r.step

/-- The largest value that counts as reached. -/
def bound (r : Range) : Float := r.stop + r.step * 1e-9

/-- The values from number `k` on, at most `left` of them, put before those in `found`, last first.
A value that does not exceed the last one ends the list. -/
def candidatesFrom (r : Range) : Nat → Nat → Float → List Float → List Float
  | 0, _, _, found => found
  | left + 1, k, last, found =>
    let v := r.value k
    if v > r.bound || v ≤ last then found
    else candidatesFrom r left (k + 1) v (v :: found)

/-- The values after the start, in order. -/
def candidates (r : Range) : List Float := (r.candidatesFrom maxCandidates 1 r.start []).reverse

/-- A range in JSON. -/
def json (r : Range) : Json :=
  .record [("start", .float r.start), ("step", .float r.step), ("end", .float r.stop)]

/-- Reads a range. -/
def decoder : Json.Decoder Range := fun j => do
  match ← Json.Decoder.members ["start", "step", "end"] j with
  | [start, step, stop] =>
    return {
      start := ← Json.Decoder.required .float start
      step := ← Json.Decoder.required .float step
      stop := ← Json.Decoder.required .float stop }
  | _ => none

end Range

end EngineDuel.Tuning

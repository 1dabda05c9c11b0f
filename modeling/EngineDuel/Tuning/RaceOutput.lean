import EngineDuel.Report.FinalLine
import EngineDuel.Text.Lines
import EngineDuel.Tuning.Climb

/-!
# What a match tells

The program that plays a match ends its output with a final line. Earlier lines may look like one,
so the last line that can be read as one counts.
-/

namespace EngineDuel.Tuning

/-- The ratings of the last final line among some lines. -/
def lastRatings? (lines : List String) : Option Report.FinalRatings :=
  lines.foldl (fun found line => (Report.readFinalLine? line).or found) none

/-- The output of a match. -/
structure RaceOutput where
  /-- The lines up to the first that is not UTF-8. -/
  lines : List String
  /-- Whether that was all. -/
  whole : Bool

/-- The output that bytes are. -/
def RaceOutput.ofBytes (data : List UInt8) : RaceOutput :=
  let lines := Text.readableLines data
  ⟨lines, lines.length == (Text.byteLines data).length⟩

/-- What a match brought, where `fault` tells what was wrong with the end of the program, if
something was. -/
def RaceOutput.outcome (o : RaceOutput) (fault : Option String) : Except Failure RaceOutcome :=
  if !o.whole then
    .error (Failure.within (.because "stream did not contain valid UTF-8")
      "failed to read arena output")
  else
    match fault, lastRatings? o.lines with
    | some text, _ => .error (.because ("arena exited with " ++ text))
    | none, some r => .ok ⟨r.aElo, r.bElo⟩
    | none, none => .error (.because "arena output has no \x60Arena Finished\x60 line")

end EngineDuel.Tuning

import EngineDuel.Failure
import EngineDuel.Host.Workspace
import EngineDuel.Log
import EngineDuel.Report.GameFile

/-!
# Writing files of a run

The file of games is created with the directories above it, and each line is added as soon as it is
known. A heading with a path that is no text breaks off in the middle of its line.
-/

namespace EngineDuel.Host

/-- A fault on the way to something. -/
def faultWithin (f : Fault) (text : String) : Failure := (Failure.because f.message).within text

/-- A fault as the failure of something. -/
def failing {α : Type} (text : String) : Except Fault α → Except Failure α
  | .ok a => .ok a
  | .error f => .error (faultWithin f text)

/-- Makes the directories above a name. -/
def makeAbove (w : Workspace) (cwd : Place) (path : String) : Except Failure Workspace :=
  match Path.parent? path with
  | none => .ok w
  | some dir =>
    if dir = "" then .ok w else failing ("failed to create " ++ dir) (w.makeAll cwd dir)

/-- Creates a file of games, empty at first. -/
def createRecords (w : Workspace) (cwd : Place) (path : String) : Except Failure Workspace := do
  let w ← makeAbove w cwd path
  failing ("failed to create " ++ path) (w.write cwd path (.bytes []))

/-- Adds a text to a file of games. -/
def addRecord (w : Workspace) (cwd : Place) (path text : String) : Except Failure Workspace :=
  failing ("failed to write " ++ path) (w.append cwd path (Text.encode text))

/-- Adds the heading to a file of games. If it has no form the start of it stays in the file. -/
def addHeading (w : Workspace) (cwd : Place) (path : String) (h : Report.Heading) (now : Moment) :
    Step Workspace Failure Unit :=
  let (text, outcome) : String × Except Failure Unit :=
    match Report.headingLine h now with
    | .ok line => (line, .ok ())
    | .error u => (String.ofList u.text, .error (.because u.reason))
  match addRecord w cwd path text with
  | .ok w => { result := outcome, state := w }
  | .error f => { result := .error f, state := w }

end EngineDuel.Host

import EngineDuel.Host.Records
import EngineDuel.Host.Work
import EngineDuel.Options.Scripted

/-!
# The scripted engine as a program

It reads a command from each line of its input until `quit` or the end, and writes what the engine
replies.
-/

namespace EngineDuel.Host.ScriptedProgram

/-- A line without its line feed and a carriage return before that. -/
def command (line : List UInt8) : List UInt8 :=
  if line.getLast? = some Text.lineFeed then Text.dropReturn line.dropLast else line

/-- Lets time pass, if there is any. -/
def think (d : Duration) : Task Unit := if d.nanos = 0 then return () else Task.sleep d

/-- Answers commands, at most so many. -/
def serve (o : Scripted.Options) : Nat → Scripted.State → Work Unit
  | 0, _ => liftM (Task.stall : Task Unit)
  | fuel + 1, s => do
    let line ← liftM Task.readLine
    if line = [] then return ()
    else
      match Text.decode? (command line) with
      | none => throw (.because Fault.notText.message)
      | some text =>
        let (reaction, s) := Scripted.onLine o s text.toList
        match reaction with
        | .quit => return ()
        | .stall => liftM (Task.stall : Task Unit)
        | .lines d ls =>
          liftM (think d)
          liftM (Task.say .out (String.join (ls.map fun l => String.ofList l ++ "\n")))
          serve o fuel s

/-- How many commands an engine answers at most. -/
def commandLimit : Nat := UInt64.size

/-- The number that an engine tells as that of its process. -/
def processNumber : String := "1"

/-- What an engine does: first it tells the number of its process, if it is asked to. -/
def work (cwd : Place) (o : Scripted.Options) : Work Unit := do
  match o.pidFile with
  | none => pure ()
  | some path =>
    Work.change fun w =>
      failing ("failed to write " ++ path) (w.write cwd path (.bytes (Text.encode processNumber)))
  serve o commandLimit {}

/-- The scripted engine, called by a name. -/
def program (cwd : Place) (name : String) (args : List RawText) : Program :=
  match Scripted.parseOptions args with
  | .error refusal => refused Scripted.manual name refusal
  | .ok o => Work.program (work cwd o)

end EngineDuel.Host.ScriptedProgram

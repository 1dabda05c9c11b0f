import EngineDuel.Host.Launch
import Std.Time.DateTime.Timestamp

/-!
# The command line

The first argument names a program: `arena` plays a tournament, `tuner` searches for the best value of
a number, and `scripted` is an engine to play against. The other arguments are the program's own.

The program works on a copy of the files below the current directory. When it has ended, the files
that it changed are written back and those that it removed are removed. The engines that it starts are
installed programs and scripts among these files.
-/

namespace EngineDuel.CommandLine

open Host

/-- The installed programs by name. -/
def programs : List (String × Installed) :=
  [("arena", .arena), ("tuner", .tuner), ("scripted", .scripted)]

/-- The directory in which the installed programs are found. -/
def programsAt : Place := ["usr", "local", "bin"]

/-- The files that are there whatever the current directory holds. -/
def installedFiles : List (Place × Entry) :=
  standardFiles ++ [(programsAt.dropLast, .directory), (programsAt, .directory)]
    ++ programs.map fun p => (programsAt ++ [p.1], .file ⟨.program p.2, true⟩)

/-- The installed files and an empty directory for the program to work in. -/
def emptyWorkspace (cwd : Place) : Workspace :=
  let above := (List.range cwd.length).map fun n => cwd.take (n + 1)
  above.foldl (fun w place => if (w.find? place).isSome then w else w.set place .directory)
    ⟨installedFiles⟩

/-- How the program is called. -/
def usage : String :=
  "usage: engine-duel (" ++ " | ".intercalate (programs.map (·.1)) ++ ") ARGUMENT...\n"

/-! ## Reading and writing files -/

/-- How many directories below one another are looked into. -/
def depthLimit : Nat := 16

/-- Adds the files below the directory `names` to a workspace. Links and what cannot be read are left
out. -/
def load (cwd : Place) : Nat → List String → Workspace → IO Workspace
  | 0, _, w => return w
  | depth + 1, names, w => do
    let here ← IO.FS.realPath ("/".intercalate ("." :: names))
    let mut w := w
    for e in ← here.readDir do
      let names := names ++ [e.fileName]
      try
        match (← e.path.symlinkMetadata).type with
        | .dir => w ← load cwd depth names (w.set (cwd ++ names) .directory)
        | .file =>
          let data := (← IO.FS.readBinFile e.path).toList
          w := w.set (cwd ++ names) (.file ⟨.bytes data, (interpreter? data).isSome⟩)
        | _ => pure ()
      catch _ => pure ()
    return w

/-- Makes the files of the current directory those of a workspace, where they were as in `start`. -/
def save (cwd : Place) (start w : Workspace) : IO Unit := do
  let before := start.listing cwd
  let after := w.listing cwd
  for (name, f) in after do
    if before.lookup name ≠ some f then
      if let .bytes data := f.content then
        if let some above := Path.parent? name then
          if above ≠ "" then IO.FS.createDirAll above
        IO.FS.writeBinFile name ⟨data.toArray⟩
  for (name, _) in before do
    if (after.lookup name).isNone then IO.FS.removeFile name

/-! ## Running a program -/

/-- Reads a line with its line feed; at the end of the input it is empty. -/
partial def readLine (input : IO.FS.Stream) (line : Array UInt8) : IO (List UInt8) := do
  let piece ← input.read 1
  let line := line ++ piece.data
  if piece.isEmpty || piece.data.contains Text.lineFeed then return line.toList
  readLine input line

/-- Waits and never goes on. -/
partial def waitForever {α : Type} : IO α := do
  IO.sleep 60000
  waitForever

/-- Writes bytes and sends them off. -/
def send (stream : IO.FS.Stream) (data : List UInt8) : IO Unit := do
  stream.write ⟨data.toArray⟩
  stream.flush

/-- Does what a program does, on the inputs and outputs of the command line. -/
def run : Program → Workspace → IO (Ending × Workspace)
  | .done ending, w => return (ending, w)
  | .emit .out data next, w => do
    send (← IO.getStdout) data
    run (next ()) w
  | .emit .err data next, w => do
    send (← IO.getStderr) data
    run (next ()) w
  | .listen next, w => do
    let line ← readLine (← IO.getStdin) #[]
    run (next line) w
  | .close _ next, w => run (next ()) w
  | .pause length next, w => do
    IO.sleep (UInt32.ofNat (min length.wholeMillis 0xffffffff))
    run (next ()) w
  | .look next, w => run (next w) w
  | .store w next, _ => run (next ()) w
  | .stall, _ => waitForever

/-- The present moment. -/
def now : IO Moment := do
  let d := (← Std.Time.Timestamp.now).val
  return ⟨d.second.val.toNat, d.nano.val.toNat⟩

/-- Runs a program in the current directory and returns the number of its ending. -/
def runHere (name : String) (args : List String) : IO Nat := do
  let cwd := (Path.pieces (← IO.currentDir).toString).filter (· ≠ "")
  let start ← load cwd depthLimit [] (emptyWorkspace cwd)
  let arenaPath := Path.ofPlace (programsAt ++ ["arena"])
  let setting : Setting := { now := ← now, arenaPath }
  let path := Path.ofPlace (programsAt ++ [name])
  match setting.launch { path, args := args.map .text, cwd } start with
  | .error fault =>
    (← IO.getStderr).putStrLn fault.message
    return 1
  | .ok program =>
    let (ending, w) ← run program start
    save cwd start w
    return ending.number

/-- Runs the program that the first argument names. -/
def perform (args : List String) : IO Nat := do
  match args with
  | name :: rest =>
    if (programs.lookup name).isSome then return ← runHere name rest
  | [] => pure ()
  (← IO.getStderr).putStr usage
  return 2

end EngineDuel.CommandLine

/-- Runs the program that the first argument names, and ends with its number. -/
def main (args : List String) : IO UInt32 := do
  return UInt32.ofNat (← EngineDuel.CommandLine.perform args)

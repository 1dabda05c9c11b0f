import EngineDuel.Host.Arena
import EngineDuel.Host.ScriptedProgram
import EngineDuel.Host.Shell.Run
import EngineDuel.Host.Tool
import EngineDuel.Host.Tuner

/-!
# Starting programs

A program is found by its name: with a slash the name tells the place of its file, and without one it
is looked for in the directories of programs. The file must be one that may be run. It is an installed
program, or a script whose first line names the program that runs it.
-/

namespace EngineDuel.Host

/-- The directories in which programs are looked for. -/
def searchPath : List String := ["/usr/local/bin/", "/usr/bin/", "/bin/"]

/-- The files of small programs and shells. -/
def standardFiles : List (Place × Entry) :=
  let file (p : Installed) : Entry := .file ⟨.program p, true⟩
  let shells : List (String × Installed) := [("sh", .shell true), ("dash", .shell true),
    ("bash", .shell false)]
  let programs := shells ++ Tool.names.map fun name => (name, Installed.tool name)
  [(["bin"], .directory), (["usr"], .directory), (["usr", "bin"], .directory)]
    ++ programs.map (fun p => (["bin", p.1], file p.2))
    ++ programs.map (fun p => (["usr", "bin", p.1], file p.2))

/-- What all programs of a run have in common. -/
structure Setting where
  now : Moment
  /-- The program that plays matches if nothing else is said. -/
  arenaPath : String

/-- The file that may be run under a name. -/
def runnableFile (w : Workspace) (cwd : Place) (path : String) : Except Fault File := do
  match ← w.entry cwd path with
  | .directory => throw .denied
  | .file f => if f.runnable then return f else throw .denied

/-- The file of a program, and the name under which it was found. -/
def findProgram (w : Workspace) (cwd : Place) (path : String) : Except Fault (File × String) :=
  if path = "" then .error .missing
  else if Path.hasSlash path then (runnableFile w cwd path).map (·, path)
  else
    searchPath.foldr (fun dir otherwise =>
      match runnableFile w cwd (dir ++ path) with
      | .ok f => .ok (f, dir ++ path)
      | .error .denied =>
        match otherwise with
        | .ok found => .ok found
        | .error _ => .error .denied
      | .error .nameTooLong => .error .nameTooLong
      | .error _ => otherwise) (.error .missing)

/-- The program that runs a script, as its first line names it, and its argument, both as octets. -/
def interpreter? (data : List UInt8) : Option (List Char × List (List Char)) :=
  match data with
  | 0x23 :: 0x21 :: rest =>
    let line := Text.octets (rest.takeWhile (· ≠ Text.lineFeed))
    let blank (c : Char) : Bool := c = ' ' || c = '\t'
    let line := (((line.dropWhile blank).reverse).dropWhile blank).reverse
    let path := line.takeWhile (! blank ·)
    let arg := (line.dropWhile (! blank ·)).dropWhile blank
    if path = [] then none else some (path, if arg = [] then [] else [arg])
  | _ => none

/-- What an installed program does. -/
def Installed.program (s : Setting) (launch : Launcher) (p : Installed) (call : Invocation) :
    Program :=
  let name := Path.lastPiece call.path.shown
  match p with
  | .arena => Arena.program { launch, now := s.now, cwd := call.cwd } name call.args
  | .tuner => Tuner.program launch call.cwd s.arenaPath name call.args
  | .scripted => ScriptedProgram.program call.cwd name call.args
  | .shell echoEscapes => Shell.program launch echoEscapes call
  | .tool name => Tool.program launch name call

/-- Whether a text cannot be passed to a program. -/
def hasNul (text : RawText) : Bool := text.bytes.contains 0

/-- Whether a program cannot be told what it is to be told. -/
def Invocation.hasNul (call : Invocation) : Bool :=
  Host.hasNul call.path || call.args.any Host.hasNul
    || call.environment.any fun v => Host.hasNul v.1 || Host.hasNul v.2

/-- Starts programs, which may start others in turn; so many programs may have been started one by
another. -/
def launcher (s : Setting) : Nat → Launcher
  | 0 => fun _ _ => .error .tooDeep
  | depth + 1 => fun call w => do
    if call.hasNul then throw .nulInArgument
    let (file, path) ← findProgram w call.cwd (← nameOf call.path)
    match file.content with
    | .program p => return p.program s (launcher s depth) call
    | .bytes data =>
      match interpreter? data with
      | none => throw .badProgram
      | some (interpreter, args) =>
        let interpreter :=
          if interpreter.contains '/' then interpreter else "./".toList ++ interpreter
        let args := args.map RawText.ofOctets ++ .text path :: call.args
        launcher s depth { call with path := .ofOctets interpreter, args } w

/-- How many programs may have been started one by another. -/
def launchDepth : Nat := 64

/-- What starts programs. -/
def Setting.launch (s : Setting) : Launcher := launcher s launchDepth

end EngineDuel.Host

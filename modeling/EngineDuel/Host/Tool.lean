import EngineDuel.Host.Condition
import EngineDuel.Host.Task

/-!
# Small programs

The programs that scripts and build commands use: they print, copy, make and remove files, wait, or
only end in a certain way. Each is a function of how it was started, or of the directory in which it
works and its arguments if these must be texts.
-/

namespace EngineDuel.Host.Tool

/-- Says what went wrong. -/
def complain (name text : String) : Task Unit := Task.say .err (name ++ ": " ++ text ++ "\n")

/-- The text of a fault without its number. -/
def reason : Fault → String
  | .missing => "No such file or directory"
  | .denied => "Permission denied"
  | .alreadyThere => "File exists"
  | .notDirectory => "Not a directory"
  | .isDirectory => "Is a directory"
  | .nameTooLong => "File name too long"
  | f => f.message

/-- A name as it is quoted in a message. -/
def quoted (path : String) : String := "'" ++ path ++ "'"

/-- The letters of the options among some arguments, and the other arguments. -/
def flagsAndNames (args : List String) : List Char × List String :=
  let isFlag (a : String) : Bool := a.startsWith "-" && a ≠ "-"
  ((args.filter isFlag).flatMap fun a => a.toList.drop 1, args.filter (! isFlag ·))

/-- Does something for each name; ends with one if something failed. -/
def forEach (names : List String) (act : String → Task Bool) : Program := do
  let oks ← names.mapM act
  return .code (if oks.all id then 0 else 1)

/-- Changes the files, and says what went wrong. -/
def attempt (name : String) (text : Fault → String) (f : Workspace → Except Fault Workspace) :
    Task Bool := do
  match ← Task.change f with
  | .ok () => return true
  | .error e =>
    complain name (text e)
    return false

/-! ## Text -/

/-- Copies the input to the output, at most so many lines. -/
def passOn : Nat → Task Unit
  | 0 => .stall
  | fuel + 1 => do
    let line ← Task.readLine
    if line = [] then return ()
    else
      Task.write .out line
      passOn fuel

/-- How many lines an input has at most. -/
def inputLimit : Nat := UInt64.size

/-- Prints files one after another. -/
def cat (cwd : Place) (args : List String) : Program := do
  let (_, names) := flagsAndNames args
  if names.isEmpty then
    passOn inputLimit
    return .code 0
  else forEach names fun name => do
    if name = "-" then
      passOn inputLimit
      return true
    else
      match (← Task.files).read cwd name with
      | .ok data =>
        Task.write .out data
        return true
      | .error e =>
        complain "cat" (name ++ ": " ++ reason e)
        return false

/-- Prints its arguments. -/
def echo (call : Invocation) : Program := do
  Task.write .out (Printf.plainEcho false true (call.args.map RawText.octets))
  return .code 0

/-- Prints by a format. -/
def printf (call : Invocation) : Program := do
  match (if call.args.head? = some (.text "--") then call.args.drop 1 else call.args) with
  | [] =>
    complain "printf" "missing operand"
    return .code 1
  | format :: args =>
    let w := Printf.printf format.octets (args.map RawText.octets)
    Task.write .out w.data
    for bad in w.bad do
      complain "printf" (quoted (RawText.ofOctets bad).shown ++ ": expected a numeric value")
    return .code (if w.bad.isEmpty then 0 else 1)

/-- Prints whole numbers in order. -/
def seq (args : List String) : Program := do
  let numbers := args.map Condition.number?
  let range : Option (Int × Int × Int) := match numbers with
    | [some last] => some (1, 1, last)
    | [some first, some last] => some (first, 1, last)
    | [some first, some step, some last] => some (first, step, last)
    | _ => none
  match range with
  | none => return .code 1
  | some (first, step, last) =>
    if step = 0 then return .code 1
    let count := if 0 < step then (last - first) / step + 1 else (first - last) / (-step) + 1
    let lines := (List.range count.toNat).map fun (i : Nat) =>
      toString (first + step * (i : Int)) ++ "\n"
    Task.say .out (String.join lines)
    return .code 0

/-- Prints the last piece of a name. -/
def basename (args : List String) : Program := do
  Task.say .out (Path.lastPiece (args.headD "") ++ "\n")
  return .code 0

/-- Prints the directory of a name. -/
def dirname (args : List String) : Program := do
  let parent := (Path.parent? (args.headD "")).getD "."
  Task.say .out ((if parent = "" then "." else parent) ++ "\n")
  return .code 0

/-- Prints the directory in which it works. -/
def pwd (cwd : Place) : Program := do
  Task.say .out (Path.ofPlace cwd ++ "\n")
  return .code 0

/-- Checks a condition. -/
def test (bracket : Bool) (call : Invocation) : Program := do
  let name := if bracket then "[" else "test"
  if bracket && call.args.getLast? ≠ some (.text "]") then
    complain name ("missing " ++ quoted "]")
    return .code 2
  else
    let args := if bracket then call.args.dropLast else call.args
    let result := Condition.holds (← Task.files) call.cwd (args.map fun a => String.ofList a.octets)
    match result with
    | .error text => complain name (RawText.ofOctets text.toList).shown
    | .ok _ => pure ()
    return .code (Condition.code result)

/-! ## Files -/

/-- Where a file goes if it is brought to a name: into a directory, or under that name itself. -/
def destination (w : Workspace) (cwd : Place) (source dest : String) : String :=
  if w.isDirectory cwd dest then dest ++ "/" ++ Path.lastPiece source else dest

/-- Copies a file onto another one, which keeps what it may be used for. -/
def copyOnto (w : Workspace) (cwd : Place) (source dest : String) : Except Fault Workspace := do
  let dest := destination w cwd source dest
  match (← w.entry cwd source), w.entry cwd dest with
  | .directory, _ => throw .isDirectory
  | .file f, .ok (.file _) => w.write cwd dest f.content
  | .file _, _ => w.copy cwd source dest

/-- What is said about a file that cannot be copied. -/
def copyFault (w : Workspace) (cwd : Place) (source dest : String) (f : Fault) : String :=
  match w.entry cwd source with
  | .error e => "cannot stat " ++ quoted source ++ ": " ++ reason e
  | .ok .directory => "-r not specified; omitting directory " ++ quoted source
  | .ok (.file _) => "cannot create regular file " ++ quoted dest ++ ": " ++ reason f

/-- Copies files. -/
def cp (cwd : Place) (args : List String) : Program := do
  let (_, names) := flagsAndNames args
  match names.getLast? with
  | none =>
    complain "cp" "missing file operand"
    return .code 1
  | some dest => forEach names.dropLast fun source => do
    let w ← Task.files
    attempt "cp" (copyFault w cwd source dest) fun w => copyOnto w cwd source dest

/-- Moves a file. -/
def move (w : Workspace) (cwd : Place) (source dest : String) : Except Fault Workspace := do
  let from_ ← w.resolve cwd source
  match from_.entry with
  | none => throw .missing
  | some .directory => throw .isDirectory
  | some (.file f) =>
    let (place, _) ← w.writable cwd (destination w cwd source dest)
    if place = from_.place then return w else return (w.erase from_.place).set place (.file f)

/-- Moves files. -/
def mv (cwd : Place) (args : List String) : Program := do
  let (_, names) := flagsAndNames args
  match names.getLast? with
  | none =>
    complain "mv" "missing file operand"
    return .code 1
  | some dest => forEach names.dropLast fun source => do
    let w ← Task.files
    attempt "mv" (copyFault w cwd source dest) fun w => move w cwd source dest

/-- Removes what there is under a name. -/
def remove (recursive force : Bool) (w : Workspace) (cwd : Place) (path : String) :
    Except Fault Workspace := do
  let t ← match w.resolve cwd path with
    | .ok t => pure t
    | .error e => if force then return w else throw e
  match t.entry with
  | none => if force then return w else throw .missing
  | some .directory => if recursive then return w.erase t.place else throw .isDirectory
  | some (.file _) => return w.erase t.place

/-- Removes files. -/
def rm (cwd : Place) (args : List String) : Program := do
  let (flags, names) := flagsAndNames args
  forEach names fun name =>
    attempt "rm" (fun e => "cannot remove " ++ quoted name ++ ": " ++ reason e) fun w =>
      remove (flags.contains 'r' || flags.contains 'R') (flags.contains 'f') w cwd name

/-- Makes directories. -/
def mkdir (cwd : Place) (args : List String) : Program := do
  let (flags, names) := flagsAndNames args
  forEach names fun name =>
    attempt "mkdir" (fun e => "cannot create directory " ++ quoted name ++ ": " ++ reason e) fun w =>
      if flags.contains 'p' then w.makeAll cwd name else w.makeDirectory cwd name

/-- Creates files that do not exist. -/
def touch (cwd : Place) (args : List String) : Program := do
  let (_, names) := flagsAndNames args
  forEach names fun name =>
    attempt "touch" (fun e => "cannot touch " ++ quoted name ++ ": " ++ reason e) fun w =>
      if w.isDirectory cwd name then .ok w else w.append cwd name []

/-- Whether a mode makes a file runnable, as far as that can be told. -/
def runnableMode? (mode : String) : Option Bool :=
  if mode.contains 'x' then some (!mode.contains '-')
  else if mode.toList.all Char.isDigit then
    some ((mode.toList.getLast?.any fun c => (c.toNat - '0'.toNat) % 2 = 1)
      || mode.toList.any fun c => c = '7' || c = '5' || c = '1')
  else none

/-- Makes a file runnable or not, as a mode tells. -/
def setMode (mode : String) (w : Workspace) (cwd : Place) (path : String) :
    Except Fault Workspace := do
  let t ← w.resolve cwd path
  match t.entry with
  | none => throw .missing
  | some .directory => return w
  | some (.file f) =>
    return w.set t.place (.file { f with runnable := (runnableMode? mode).getD f.runnable })

/-- Prints the names in a directory, or the name of a file. -/
def ls (cwd : Place) (args : List String) : Program := do
  let (_, names) := flagsAndNames args
  forEach (if names.isEmpty then ["."] else names) fun name => do
    let w ← Task.files
    match w.resolve cwd name with
    | .ok ⟨place, some .directory⟩ =>
      let shown := (w.children place).filter fun n => !n.startsWith "."
      Task.say .out (String.join ((shown.mergeSort fun a b => a ≤ b).map (· ++ "\n")))
      return true
    | .ok ⟨_, some (.file _)⟩ =>
      Task.say .out (name ++ "\n")
      return true
    | _ =>
      complain "ls" ("cannot access " ++ quoted name ++ ": " ++ reason .missing)
      return false

/-- Changes which files may be run. -/
def chmod (cwd : Place) (args : List String) : Program := do
  match args with
  | [] =>
    complain "chmod" "missing operand"
    return .code 1
  | mode :: names =>
    forEach names fun name =>
      attempt "chmod" (fun e => "cannot access " ++ quoted name ++ ": " ++ reason e) fun w =>
        setMode mode w cwd name

/-! ## Time and other programs -/

/-- A span of time as an argument tells it: seconds, with a fraction and a unit. -/
def span? (arg : String) : Option Duration :=
  let cs := arg.toList
  let (digits, unit) := match cs.getLast? with
    | some 's' => (cs.dropLast, 1)
    | some 'm' => (cs.dropLast, 60)
    | some 'h' => (cs.dropLast, 3600)
    | _ => (cs, 1)
  let whole := digits.takeWhile Char.isDigit
  let fraction := (digits.dropWhile Char.isDigit).drop 1
  if fraction.all Char.isDigit && !(whole ++ fraction).isEmpty then
    let value (ds : List Char) : Nat := ds.foldl (fun n c => n * 10 + (c.toNat - '0'.toNat)) 0
    let nanos := value (fraction.take 9) * Nat.pow 10 (9 - fraction.length)
    some ⟨(value whole * 1000000000 + nanos) * unit⟩
  else none

/-- Waits. -/
def sleep (args : List String) : Program := do
  match args with
  | [arg] =>
    if arg = "infinity" || arg = "inf" then Task.stall
    else
      match span? arg with
      | some d =>
        Task.sleep d
        return .code 0
      | none =>
        complain "sleep" ("invalid time interval " ++ quoted arg)
        return .code 1
  | _ =>
    complain "sleep" "missing operand"
    return .code 1

/-- Starts another program with more variables. -/
def env (launch : Launcher) (call : Invocation) : Program := do
  let isSetting (a : RawText) : Bool := a.octets.contains '='
  let settings : List (RawText × RawText) := (call.args.takeWhile isSetting).map fun a =>
    (.ofOctets (a.octets.takeWhile (· ≠ '=')),
      .ofOctets ((a.octets.dropWhile (· ≠ '=')).drop 1))
  match call.args.dropWhile isSetting with
  | [] =>
    Task.write .out ((call.environment ++ settings).flatMap fun v =>
      v.1.bytes ++ Text.encode "=" ++ v.2.bytes ++ [Text.lineFeed])
    return .code 0
  | name :: args =>
    let kept := call.environment.filter fun v => !(settings.any (·.1 = v.1))
    match launch { call with path := name, args, environment := kept ++ settings } (← Task.files) with
    | .ok program => program
    | .error f =>
      complain "env" (quoted name.shown ++ ": " ++ reason f)
      return .code (if f = .missing then 127 else 126)

/-- The names of the small programs. -/
def names : List String :=
  ["true", "false", "cat", "echo", "printf", "seq", "basename", "dirname", "pwd", "test", "[", "cp",
   "mv", "rm", "mkdir", "touch", "ls", "chmod", "sleep", "env"]

/-- What a small program does whose arguments are texts. -/
def textProgram (name : String) (cwd : Place) (args : List String) : Program :=
  match name with
  | "cat" => cat cwd args
  | "seq" => seq args
  | "basename" => basename args
  | "dirname" => dirname args
  | "cp" => cp cwd args
  | "mv" => mv cwd args
  | "rm" => rm cwd args
  | "mkdir" => mkdir cwd args
  | "touch" => touch cwd args
  | "ls" => ls cwd args
  | "chmod" => chmod cwd args
  | "sleep" => sleep args
  | _ => return .code 1

/-- What a small program does. -/
def program (launch : Launcher) (name : String) (call : Invocation) : Program :=
  match name with
  | "true" => return .code 0
  | "echo" => echo call
  | "printf" => printf call
  | "pwd" => pwd call.cwd
  | "test" => test false call
  | "[" => test true call
  | "env" => env launch call
  | name =>
    match call.args.mapM RawText.text? with
    | some args => textProgram name call.cwd args
    | none => do
      complain name Fault.notText.message
      return .code 1

end EngineDuel.Host.Tool

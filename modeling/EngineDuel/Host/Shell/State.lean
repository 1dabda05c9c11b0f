import EngineDuel.Host.Shell.Script
import EngineDuel.Host.Task

/-!
# The state of a shell

What a shell remembers between commands: variables, arguments, where its outputs go, and whether it
is about to leave a loop, a function or the script.

A shell works on bytes. All texts in it are octets, and only names of files need be texts in UTF-8.
-/

namespace EngineDuel.Host.Shell

/-- Where an output of a shell goes. -/
inductive Sink where
  | channel (c : Channel)
  | file (place : Place)
  /-- Nowhere. -/
  | nothing
  deriving DecidableEq, Repr

/-- Writes to a sink. -/
def Sink.write (data : List UInt8) : Sink → Task Unit
  | .channel c => Task.write c data
  | .file place => do
    let _ ← Task.change fun w => w.append [] (Path.ofPlace place) data
    return ()
  | .nothing => return ()

/-- How the commands go on. -/
inductive Flow where
  | onward
  /-- Leaves so many loops. -/
  | leave (loops : Nat)
  /-- Leaves all but one of so many loops and goes on with the next round of that one. -/
  | again (loops : Nat)
  | return_
  | exit (e : Ending)
  deriving DecidableEq, Repr

/-- The state of a shell. -/
structure State where
  bindings : List (List Char × List Char) := []
  /-- The variables that programs are told. -/
  exported : List (List Char) := []
  arguments : List (List Char) := []
  /-- What the script is called. -/
  name : List Char := "sh".toList
  /-- The number that the last command ended with. -/
  status : Nat := 0
  functions : List (List Char × Script) := []
  cwd : Place
  out : Sink := .channel .out
  err : Sink := .channel .err
  flow : Flow := .onward
  /-- Whether a command that fails ends the script. -/
  strict : Bool := false
  /-- Whether a condition is being checked, where failing commands do not count. -/
  checking : Bool := false
  /-- The line of the last simple command. -/
  line : Nat := 1
  /-- Whether `echo` knows escapes without being told. -/
  echoEscapes : Bool := true

/-- What a shell does: a task that changes its state. -/
abbrev Act := StateT State Task

namespace State

/-- Where a channel of the shell goes. -/
def sink (s : State) : Channel → Sink
  | .out => s.out
  | .err => s.err

/-- The value of a variable. -/
def valueOf? (s : State) (name : List Char) : Option (List Char) := s.bindings.lookup name

/-- The state after an assignment. -/
def assign (s : State) (name value : List Char) : State :=
  { s with bindings := (name, value) :: s.bindings.filter (·.1 ≠ name) }

/-- The number that stands for the shell's own process. -/
def ownNumber : List Char := "4242".toList

/-- The value of a parameter: a variable, an argument or what a sign stands for. -/
def parameter? (s : State) (name : List Char) : Option (List Char) :=
  match name with
  | ['@'] => if s.arguments.isEmpty then none else some (Text.join [' '] s.arguments)
  | ['*'] => if s.arguments.isEmpty then none else some (Text.join [' '] s.arguments)
  | ['#'] => some (Nat.toDigits 10 s.arguments.length)
  | ['?'] => some (Nat.toDigits 10 s.status)
  | ['$'] => some ownNumber
  | ['-'] => some (if s.strict then ['e'] else [])
  | ['!'] => none
  | _ =>
    if name.all Char.isDigit then
      match name.foldl (fun n c => n * 10 + (c.toNat - '0'.toNat)) 0 with
      | 0 => some s.name
      | n + 1 => s.arguments[n]?
    else s.valueOf? name

/-- The characters between fields. -/
def separators (s : State) : List Char := (s.valueOf? "IFS".toList).getD [' ', '\t', '\n']

/-- The variables that programs are told. -/
def environment (s : State) : List (RawText × RawText) :=
  (s.bindings.filter fun v => s.exported.contains v.1).map fun v => (.ofOctets v.1, .ofOctets v.2)

end State

namespace Act

/-- Writes bytes to one of the shell's outputs. -/
def write (c : Channel) (data : List UInt8) : Act Unit := do
  let s ← get
  liftM (s.sink c |>.write data)

/-- Writes octets to one of the shell's outputs. -/
def say (c : Channel) (text : String) : Act Unit := write c (Text.ofOctets text.toList)

/-- Writes a message with the place in the script. -/
def complain (text : String) : Act Unit := do
  let s ← get
  say .err (String.ofList s.name ++ ": " ++ toString s.line ++ ": " ++ text ++ "\n")

/-- The files. -/
def files : Act Workspace := liftM Task.files

/-- The bytes of a file. -/
def read (path : List Char) : Act (Except Fault (List UInt8)) := do
  let w ← files
  let cwd := (← get).cwd
  return nameOf (.ofOctets path) >>= w.read cwd

/-- Tries to change the files. -/
def change (f : Workspace → Except Fault Workspace) : Act (Except Fault Unit) :=
  liftM (Task.change f)

/-- Goes on in another way. -/
def turn (flow : Flow) : Act Unit := modify fun s => { s with flow }

/-- Whether the commands go on. -/
def goesOn : Act Bool := do return (← get).flow == .onward

/-- Sets the number of the last command. -/
def setStatus (n : Nat) : Act Unit := modify fun s => { s with status := n }

/-- Does something whose input is `lines`. -/
def withInput {α : Type} (lines : List (List UInt8)) (act : Act α) : Act α :=
  fun s => Task.withInput lines (act s)

/-- Does something whose changes of the state do not last, and tells the number it ends with. -/
def apart (act : Act Unit) : Act Nat := fun s =>
  Task.reroute Task.write (act { s with flow := .onward }) >>= fun (_, s') =>
    match s'.flow with
    | .exit e => .done (e.number, s)
    | _ => .done (s'.status, s)

/-- The output of something whose changes of the state do not last, and the number it ends with. -/
def captured (act : Act Unit) : Act (List UInt8 × Nat) := fun s =>
  Task.capture (apart act { s with out := .channel .out }) [] >>= fun ((n, _), kept) =>
    .done ((kept, n), s)

end Act

end EngineDuel.Host.Shell

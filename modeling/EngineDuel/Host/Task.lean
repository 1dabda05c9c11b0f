import EngineDuel.Duration
import EngineDuel.Host.Workspace

/-!
# What programs do

A task is all that a program may do, laid out as a tree: at each node it does one thing, and the
subtree that follows depends on what came of it. Every path in the tree is finite, so whatever runs a
task does so by recursion on it, and a task that would go on for ever stalls at last.

Tasks compose: `Task.bind` puts a task after another one. A program is a task whose value says how it
ended.
-/

namespace EngineDuel.Host

/-- The two outputs of a program. -/
inductive Channel where
  | out
  | err
  deriving DecidableEq, Repr

/-- How a program ended. -/
inductive Ending where
  | code (n : Nat)
  | killed (signal : Nat)
  deriving DecidableEq, Repr

namespace Ending

/-- The name of a signal. -/
def signalName : Nat → String
  | 1 => " (SIGHUP)"
  | 2 => " (SIGINT)"
  | 3 => " (SIGQUIT)"
  | 4 => " (SIGILL)"
  | 6 => " (SIGABRT)"
  | 8 => " (SIGFPE)"
  | 9 => " (SIGKILL)"
  | 10 => " (SIGUSR1)"
  | 11 => " (SIGSEGV)"
  | 12 => " (SIGUSR2)"
  | 13 => " (SIGPIPE)"
  | 14 => " (SIGALRM)"
  | 15 => " (SIGTERM)"
  | _ => ""

/-- How a program ended, in words. -/
def message : Ending → String
  | code n => "exit status: " ++ toString n
  | killed signal => "signal: " ++ toString signal ++ signalName signal

/-- Whether a program ended well. -/
def isSuccess (e : Ending) : Bool := e == .code 0

/-- The number that a shell makes of an ending. -/
def number : Ending → Nat
  | code n => n
  | killed signal => 128 + signal

end Ending

/-- What a program does until it has a value. -/
inductive Task (α : Type) where
  | done (value : α)
  /-- Writes bytes. -/
  | emit (channel : Channel) (data : List UInt8) (next : Unit → Task α)
  /-- Reads a line with its line feed; at the end of the input it is empty. -/
  | listen (next : List UInt8 → Task α)
  /-- Closes an output. -/
  | close (which : Channel) (next : Unit → Task α)
  /-- Lets time pass. -/
  | pause (length : Duration) (next : Unit → Task α)
  /-- Looks at the files. -/
  | look (next : Workspace → Task α)
  /-- Leaves the files in another state. -/
  | store (w : Workspace) (next : Unit → Task α)
  /-- Never does anything again. -/
  | stall

/-- A program that runs. -/
abbrev Program := Task Ending

namespace Task

variable {α β : Type}

/-- A task and then another one, which depends on the value of the first. -/
def bind (f : α → Task β) : Task α → Task β
  | done a => f a
  | emit channel data next => .emit channel data fun u => (next u).bind f
  | listen next => .listen fun line => (next line).bind f
  | close which next => .close which fun u => (next u).bind f
  | pause length next => .pause length fun u => (next u).bind f
  | look next => .look fun w => (next w).bind f
  | store w next => .store w fun u => (next u).bind f
  | stall => .stall

instance : Monad Task where
  pure := done
  bind t f := bind f t

/-- Writes bytes. -/
def write (channel : Channel) (data : List UInt8) : Task Unit :=
  if data = [] then .done () else .emit channel data done

/-- Writes a text. -/
def say (channel : Channel) (text : String) : Task Unit :=
  write channel (Text.encode text)

/-- Reads a line. -/
def readLine : Task (List UInt8) := .listen done

/-- The files as they are. -/
def files : Task Workspace := .look done

/-- Leaves the files in another state. -/
def putFiles (w : Workspace) : Task Unit := .store w done

/-- Lets time pass. -/
def sleep (d : Duration) : Task Unit := .pause d done

/-- Tries to change the files. -/
def change (f : Workspace → Except Fault Workspace) : Task (Except Fault Unit) := do
  match f (← files) with
  | .ok w =>
    putFiles w
    return .ok ()
  | .error e => return .error e

/-- A task whose input is `lines` and then ends. What it leaves of them is lost. -/
def withInput : List (List UInt8) → Task α → Task α
  | _, done a => .done a
  | lines, emit channel data next => .emit channel data fun u => (next u).withInput lines
  | [], listen next => (next []).withInput []
  | line :: lines, listen next => (next line).withInput lines
  | lines, close which next => .close which fun u => (next u).withInput lines
  | lines, pause length next => .pause length fun u => (next u).withInput lines
  | lines, look next => .look fun w => (next w).withInput lines
  | lines, store w next => .store w fun u => (next u).withInput lines
  | _, stall => .stall

/-- A task whose output is kept and not written, together with that output. -/
def capture : Task α → List UInt8 → Task (α × List UInt8)
  | done a, kept => .done (a, kept)
  | emit .out data next, kept => (next ()).capture (kept ++ data)
  | emit .err data next, kept => .emit .err data fun u => (next u).capture kept
  | listen next, kept => .listen fun line => (next line).capture kept
  | close .out next, kept => (next ()).capture kept
  | close .err next, kept => .close .err fun u => (next u).capture kept
  | pause length next, kept => .pause length fun u => (next u).capture kept
  | look next, kept => .look fun w => (next w).capture kept
  | store w next, kept => .store w fun u => (next u).capture kept
  | stall, _ => .stall

/-- A task each of whose writings is done by `write`; it closes no output. -/
def reroute (write : Channel → List UInt8 → Task Unit) : Task α → Task α
  | done a => .done a
  | emit channel data next => bind (fun u => (next u).reroute write) (write channel data)
  | listen next => .listen fun line => (next line).reroute write
  | close _ next => (next ()).reroute write
  | pause length next => .pause length fun u => (next u).reroute write
  | look next => .look fun w => (next w).reroute write
  | store w next => .store w fun u => (next u).reroute write
  | stall => .stall

end Task

/-! ## Starting programs -/

/-- A program that is to be started. -/
structure Invocation where
  /-- The name of the program; without a slash it is looked for. -/
  path : RawText
  args : List RawText := []
  /-- The variables that the program is told. -/
  environment : List (RawText × RawText) := []
  /-- The directory in which the program works. -/
  cwd : Place

/-- What starts programs: it finds the file of a program and returns what it will do. -/
abbrev Launcher := Invocation → Workspace → Except Fault Program

/-! ## Running to the end -/

/-- What a program left when it was run to its end. -/
structure Finished where
  out : List UInt8
  err : List UInt8
  ending : Ending
  files : Workspace
  /-- The lines that it did not read. -/
  unread : List (List UInt8)

/-- Runs a program to its end, where it has already written some pieces, kept last first. -/
def Task.finishFrom : Program → Workspace → List (List UInt8) → List (List UInt8) →
    List (List UInt8) → Finished
  | done ending, files, unread, outs, errs =>
    { out := outs.reverse.flatten, err := errs.reverse.flatten, ending, files, unread }
  | emit .out data next, w, lines, outs, errs => (next ()).finishFrom w lines (data :: outs) errs
  | emit .err data next, w, lines, outs, errs => (next ()).finishFrom w lines outs (data :: errs)
  | listen next, w, [], outs, errs => (next []).finishFrom w [] outs errs
  | listen next, w, line :: lines, outs, errs => (next line).finishFrom w lines outs errs
  | close _ next, w, lines, outs, errs => (next ()).finishFrom w lines outs errs
  | pause _ next, w, lines, outs, errs => (next ()).finishFrom w lines outs errs
  | look next, w, lines, outs, errs => (next w).finishFrom w lines outs errs
  | store w next, _, lines, outs, errs => (next ()).finishFrom w lines outs errs
  | stall, files, unread, outs, errs =>
    { out := outs.reverse.flatten, err := errs.reverse.flatten, ending := .killed 9, files, unread }

/-- Runs a program to its end, on the given files and with the given lines as its input. A program
that stalls is killed. -/
def Task.finish (p : Program) (files : Workspace) (lines : List (List UInt8)) : Finished :=
  p.finishFrom files lines [] []

/-- The lines of an input, each with its line feed; the last may have none. -/
def inputLines (data : List UInt8) : List (List UInt8) :=
  let pieces := Text.splitAt (· == Text.lineFeed) data
  let last := pieces.getLast?.getD []
  pieces.dropLast.map (· ++ [Text.lineFeed]) ++ (if last.isEmpty then [] else [last])

end EngineDuel.Host

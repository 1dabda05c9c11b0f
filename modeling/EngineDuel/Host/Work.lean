import EngineDuel.Failure
import EngineDuel.Host.Task
import EngineDuel.Options.Help

/-!
# The work of a program

A program reads its options and then does its work, which may fail. A failure is reported on the
error output, and the program ends with one; options that are refused make it end with two, and a
counter that outgrows its bits with 101.
-/

namespace EngineDuel.Host

/-- A program's work: a task that may fail. -/
abbrev Work := ExceptT Failure Task

/-- A program that does its work and reports a failure at the end. -/
def Work.program (work : Work Unit) : Program := do
  match ← work.run with
  | .ok () => return .code 0
  | .error f =>
    Task.say .err f.report
    return .code 1

/-- What a program does, called by a name, whose options were refused or that was only asked about
itself. -/
def refused {α : Type} (manual : Options.Manual α) (name : String) : Options.Refusal → Program
  | .help => do
    Task.say .out (manual.help name)
    return .code 0
  | .version => do
    Task.say .out Options.versionText
    return .code 0
  | refusal => do
    Task.say .err (manual.complaint name refusal)
    return .code 2

/-- Changes the files. -/
def Work.change (f : Workspace → Except Failure Workspace) : Work Unit := do
  match f (← liftM Task.files) with
  | .ok w => liftM (Task.putFiles w)
  | .error e => throw e

/-- The ending of a program that stops because a counter outgrew its bits. -/
def overflowEnding : Ending := .code 101

end EngineDuel.Host

import EngineDuel.Host.Shell.Builtin
import EngineDuel.Host.Shell.Expand

/-!
# Running scripts

A script is run command by command. Programs are started by a given launcher, and whatever they write
goes where the shell's outputs go. Loops and calls use up a large supply of steps; a script that
needs more of them stalls.
-/

namespace EngineDuel.Host.Shell

/-! ## Redirections -/

/-- What redirections change: where outputs go, and the input if it is another one. -/
structure Rerouting where
  out : Sink
  err : Sink
  input : Option (List (List UInt8)) := none

/-- Where a channel goes. -/
def Rerouting.sink (r : Rerouting) (stream : Nat) : Sink := if stream = 2 then r.err else r.out

/-- The same with one stream going elsewhere. -/
def Rerouting.set (r : Rerouting) (stream : Nat) (s : Sink) : Rerouting :=
  if stream = 2 then { r with err := s } else { r with out := s }

/-- What is said about a file that cannot be written. -/
def cannotCreate (path : List Char) (f : Fault) : String :=
  "cannot create " ++ String.ofList path ++ ": " ++ match f with
    | .missing => "Directory nonexistent"
    | .isDirectory => "Is a directory"
    | .denied => "Permission denied"
    | .notDirectory => "Directory nonexistent"
    | _ => "No such file"

/-- The sink that a name of a file stands for; the file is created, and emptied if nothing is to be
added to it. -/
def sinkOf (cwd : Place) (append : Bool) (path : List Char) (r : Rerouting) :
    Act (Option Sink) := do
  if path = "/dev/null".toList then return some .nothing
  else if path = "/dev/stdout".toList then return some r.out
  else if path = "/dev/stderr".toList then return some r.err
  else
    let opened ← Act.change fun w => do
      let name ← nameOf (.ofOctets path)
      if append then w.append cwd name [] else w.write cwd name (.bytes [])
    match opened with
    | .error f =>
      Act.complain (cannotCreate path f)
      return none
    | .ok () =>
      let w ← Act.files
      match nameOf (.ofOctets path) >>= w.resolve cwd with
      | .ok t => return some (.file t.place)
      | .error _ => return none

/-- Follows one redirection; there is nothing if it cannot be followed. -/
def redirect (substitute : Substitute) (r : Rerouting) (d : Redirection) :
    Act (Option Rerouting) := do
  match d with
  | .input target =>
    let path ← expandText substitute target
    if path = "/dev/null".toList then return some { r with input := some [] }
    else
      match ← Act.read path with
      | .ok data => return some { r with input := some (inputLines data) }
      | .error _ =>
        Act.complain ("cannot open " ++ String.ofList path ++ ": No such file")
        return none
  | .output stream append target =>
    let path ← expandText substitute target
    return (← sinkOf (← get).cwd append path r).map (r.set stream)
  | .duplicate stream target =>
    match String.ofList (← expandText substitute target) with
    | "-" => return some (if stream = 0 then { r with input := some [] } else r.set stream .nothing)
    | "2" => return some (r.set stream r.err)
    | _ => return some (if stream = 0 then r else r.set stream r.out)

/-- Follows redirections in their order. -/
def redirectAll (substitute : Substitute) :
    Rerouting → List Redirection → Act (Option Rerouting)
  | r, [] => return some r
  | r, d :: rest => do
    match ← redirect substitute r d with
    | some r => redirectAll substitute r rest
    | none => return none

/-- Does something with its streams redirected. -/
def withRedirections (substitute : Substitute) (rs : List Redirection) (act : Act Unit) :
    Act Unit := do
  if rs.isEmpty then act
  else
    let s ← get
    match ← redirectAll substitute { out := s.out, err := s.err } rs with
    | none => Act.setStatus 2
    | some r =>
      modify fun s => { s with out := r.out, err := r.err }
      match r.input with
      | some lines => Act.withInput lines act
      | none => act
      modify fun t => { t with out := s.out, err := s.err }

/-- Redirects the streams of the shell itself. Outputs that nothing leads to any more are closed. -/
def redirectShell (substitute : Substitute) (rs : List Redirection) : Act Unit := do
  let s ← get
  match ← redirectAll substitute { out := s.out, err := s.err } rs with
  | none => Act.turn (.exit (.code 2))
  | some r =>
    modify fun s => { s with out := r.out, err := r.err }
    for c in [Channel.out, Channel.err] do
      if r.out ≠ .channel c && r.err ≠ .channel c then liftM (Task.close c fun _ => .done ())
    Act.setStatus 0

/-! ## Programs -/

/-- What is said about a program that cannot be started, and the number for it. -/
def launchFault : Fault → String × Nat
  | .missing => ("not found", 127)
  | .notDirectory => ("not found", 127)
  | .nameTooLong => ("not found", 127)
  | _ => ("Permission denied", 126)

/-- What a shell says about a program that was killed. -/
def killedText : Nat → String
  | 9 => "Killed\n"
  | 15 => "Terminated\n"
  | 6 => "Aborted\n"
  | 11 => "Segmentation fault\n"
  | _ => ""

/-- Runs a program. A file that may be run and is no program is run as a script. -/
def runProgram (launch : Launcher) (name : List Char) (args : List (List Char))
    (extra : List (List Char × List Char)) : Act Unit := do
  let s ← get
  let files ← Act.files
  let extra : List (RawText × RawText) := extra.map fun v => (.ofOctets v.1, .ofOctets v.2)
  let environment := extra ++ s.environment.filter fun v => !(extra.any (·.1 = v.1))
  let call : Invocation :=
    { path := .ofOctets name, args := args.map .ofOctets, environment, cwd := s.cwd }
  let started := match launch call files with
    | .error .badProgram => launch { call with path := "/bin/sh", args := call.path :: call.args } files
    | other => other
  match started with
  | .error f =>
    let (text, n) := launchFault f
    Act.complain (String.ofList name ++ ": " ++ text)
    Act.setStatus n
  | .ok program =>
    let write (c : Channel) (data : List UInt8) : Task Unit := (s.sink c).write data
    let ending ← (liftM (Task.reroute write program) : Act Ending)
    match ending with
    | .killed signal => Act.say .err (killedText signal)
    | .code _ => pure ()
    Act.setStatus ending.number

/-! ## Commands -/

/-- What leaving a loop leaves of the way in which commands go on: whether the loop goes on, and the
new way. -/
def afterRound : Flow → Bool × Flow
  | .onward => (true, .onward)
  | .leave n => (false, if n ≤ 1 then .onward else .leave (n - 1))
  | .again n => if n ≤ 1 then (true, .onward) else (false, .again (n - 1))
  | other => (false, other)

/-- Ends a script whose last command has failed, if failures end it. -/
def heedStatus : Act Unit := do
  let s ← get
  if s.strict && !s.checking && s.status ≠ 0 && s.flow == .onward then
    Act.turn (.exit (.code s.status))

/-- Does something as a condition. -/
def asCondition (act : Act Unit) : Act Unit := do
  let before := (← get).checking
  modify fun s => { s with checking := true }
  act
  modify fun s => { s with checking := before }

mutual

/-- Runs a command with a number of steps. -/
def run (launch : Launcher) : Nat → Script → Act Unit
  | 0, _ => liftM (Task.stall : Task Unit)
  | fuel + 1, script => do
    let substitute : Substitute := runForOutput launch fuel
    if ← Act.goesOn then
      match script with
      | .nothing => pure ()
      | .simple line assignments words rs =>
        modify fun s => { s with line }
        runSimple launch fuel assignments words rs
        heedStatus
      | .andThen a b =>
        run launch fuel a
        run launch fuel b
      | .ifSucceeds a b =>
        asCondition (run launch fuel a)
        if (← get).status = 0 then run launch fuel b
      | .ifFails a b =>
        asCondition (run launch fuel a)
        if (← get).status ≠ 0 then run launch fuel b
      | .invert a =>
        asCondition (run launch fuel a)
        modify fun s => { s with status := if s.status = 0 then 1 else 0 }
      | .pipe a b =>
        let (data, _) ← Act.captured (run launch fuel a)
        let n ← Act.withInput (inputLines data) (Act.apart (run launch fuel b))
        Act.setStatus n
        heedStatus
      | .branch condition yes no =>
        asCondition (run launch fuel condition)
        if ← Act.goesOn then
          if (← get).status = 0 then run launch fuel yes
          else
            Act.setStatus 0
            run launch fuel no
      | .loop whileFails condition body => runLoop launch fuel whileFails condition body 0
      | .each name items body =>
        let values ← match items with
          | some ws => expandWords substitute ws
          | none => pure (← get).arguments
        Act.setStatus 0
        runEach launch fuel name body values
      | .choose subject clauses =>
        let text ← expandText substitute subject
        Act.setStatus 0
        runClauses launch fuel text clauses
      | .clause .. => pure ()
      | .redirected body rs => withRedirections substitute rs (run launch fuel body)
      | .subshell body =>
        let n ← Act.apart (run launch fuel body)
        Act.setStatus n
        heedStatus
      | .define name body =>
        modify fun s => { s with functions := (name, body) :: s.functions }
        Act.setStatus 0

/-- Runs the source of a script for its output. -/
def runForOutput (launch : Launcher) : Nat → List Char → Act (List UInt8)
  | 0, _ => liftM (Task.stall : Task (List UInt8))
  | fuel + 1, source => do
    let (data, n) ← Act.captured (runSource launch fuel source)
    Act.setStatus n
    return data

/-- Runs the source of a script. -/
def runSource (launch : Launcher) : Nat → List Char → Act Unit
  | 0, _ => liftM (Task.stall : Task Unit)
  | fuel + 1, source => do
    match Script.read? source with
    | some script => run launch fuel script
    | none =>
      Act.complain "Syntax error"
      Act.turn (.exit (.code 2))

/-- Runs a loop; `status` is what its last round ended with. -/
def runLoop (launch : Launcher) : Nat → Bool → Script → Script → Nat → Act Unit
  | 0, _, _, _, _ => liftM (Task.stall : Task Unit)
  | fuel + 1, whileFails, condition, body, status => do
    -- Every round looks at the files, so that no round is computed before the one before it is over.
    let _ ← Act.files
    asCondition (run launch fuel condition)
    if ← Act.goesOn then
      if ((← get).status = 0) != whileFails then
        run launch fuel body
        let s ← get
        let (more, flow) := afterRound s.flow
        Act.turn flow
        if more then runLoop launch fuel whileFails condition body s.status
      else Act.setStatus status
    else
      let (_, flow) := afterRound (← get).flow
      Act.turn flow

/-- Runs the body of a loop for each of some values. -/
def runEach (launch : Launcher) : Nat → List Char → Script → List (List Char) → Act Unit
  | 0, _, _, _ => liftM (Task.stall : Task Unit)
  | _ + 1, _, _, [] => pure ()
  | fuel + 1, name, body, value :: rest => do
    let _ ← Act.files
    modify fun s => s.assign name value
    run launch fuel body
    let (more, flow) := afterRound (← get).flow
    Act.turn flow
    if more then runEach launch fuel name body rest

/-- Runs the first clause that fits a text. -/
def runClauses (launch : Launcher) : Nat → List Char → Script → Act Unit
  | fuel + 1, text, .clause patterns body rest => do
    let substitute : Substitute := runForOutput launch fuel
    let fitting ← patterns.anyM fun p => do
      return Pattern.fits (← expandPattern substitute p) text
    if fitting then run launch fuel body else runClauses launch fuel text rest
  | _, _, _ => pure ()

/-- Runs a simple command. -/
def runSimple (launch : Launcher) : Nat → List (List Char × Word) → List Word →
    List Redirection → Act Unit
  | 0, _, _, _ => liftM (Task.stall : Task Unit)
  | fuel + 1, assignments, words, rs => do
    let substitute : Substitute := runForOutput launch fuel
    let fields ← expandWords substitute words
    if ← Act.goesOn then
      let values ← assignments.mapM fun (name, w) => do
        return (name, ← expandText substitute w)
      match fields with
      | [] =>
        if assignments.isEmpty || words.isEmpty && !(assignments.any fun a => a.2.any fun
          | .command .. => true
          | _ => false) then Act.setStatus 0
        modify fun s => values.foldl (fun s (n, v) => s.assign n v) s
        withRedirections substitute rs (pure ())
      | name :: args =>
        if name = "exec".toList && args.isEmpty then redirectShell substitute rs
        else withRedirections substitute rs (runNamed launch fuel values name args)

/-- Runs a command by its name: a function, a command of the shell or a program. -/
def runNamed (launch : Launcher) : Nat → List (List Char × List Char) → List Char →
    List (List Char) → Act Unit
  | 0, _, _, _ => liftM (Task.stall : Task Unit)
  | fuel + 1, values, name, args => do
    let s ← get
    let assigning (act : Act Unit) : Act Unit := do
      modify fun s => values.foldl (fun s (n, v) => s.assign n v) s
      act
      let restored := values.map fun (n, _) => (n, s.valueOf? n)
      modify fun t => restored.foldl (fun t (n, old) => match old with
        | some v => t.assign n v
        | none => { t with bindings := t.bindings.filter (·.1 ≠ n) }) t
    match s.functions.lookup name with
    | some body => assigning do
        modify fun s => { s with arguments := args }
        run launch fuel body
        modify fun t => { t with
          arguments := s.arguments
          flow := if t.flow == .return_ then .onward else t.flow }
    | none =>
      match String.ofList name with
      | "eval" => runSource launch fuel (Text.join [' '] args)
      | "command" =>
        match args with
        | [] => Act.setStatus 0
        | first :: rest => runNamed launch fuel values first rest
      | "." =>
        match ← Act.read (args.headD []) with
        | .ok source =>
          runSource launch fuel (Text.octets source)
          modify fun t => { t with flow := if t.flow == .return_ then .onward else t.flow }
        | .error _ =>
          Act.complain (".: cannot open " ++ String.ofList (args.headD []) ++ ": No such file")
          Act.turn (.exit (.code 2))
      | "exec" =>
        runProgram launch (args.headD []) (args.drop 1) values
        let n := (← get).status
        if ← Act.goesOn then Act.turn (.exit (.code n))
      | text =>
        match builtin? text args with
        | some act => assigning act
        | none => runProgram launch name args values

end

/-- The number of steps that a script may take. -/
def steps : Nat := 200000

/-! ## The shell as a program -/

/-- How a script ended. -/
def endingOf (s : State) : Ending :=
  match s.flow with
  | .exit e => e
  | _ => .code s.status

/-- What a shell does with the source of a script. -/
def script (launch : Launcher) (s : State) (source : List Char) : Program := do
  let (_, s) ← (runSource launch steps source).run s
  return endingOf s

/-- Whether a text among the arguments of a shell is an option. -/
def isOption (arg : List Char) : Bool := arg.head? = some '-' && arg ≠ ['-'] && arg ≠ ['-', '-']

/-- The options of a shell and what follows them. -/
def options (args : List (List Char)) : List Char × List (List Char) :=
  let flags := args.takeWhile isOption
  let rest := args.drop flags.length
  (flags.flatMap fun f => f.drop 1, if rest.head? = some ['-', '-'] then rest.drop 1 else rest)

/-- The shell. With `-c` it runs its first argument, and otherwise a file. -/
def program (launch : Launcher) (echoEscapes : Bool) (call : Invocation) : Program := do
  let (flags, rest) := options (call.args.map RawText.octets)
  let bindings := call.environment.map fun v => (v.1.octets, v.2.octets)
  let s : State := {
    bindings
    exported := bindings.map Prod.fst
    name := call.path.octets
    cwd := call.cwd
    strict := flags.contains 'e'
    echoEscapes }
  match flags.contains 'c', rest with
  | true, [] =>
    Task.say .err "sh: 0: -c requires an argument\n"
    return .code 2
  | true, source :: more =>
    script launch { s with name := more.head?.getD s.name, arguments := more.drop 1 } source
  | false, [] => return .code 0
  | false, path :: more =>
    let w ← Task.files
    match nameOf (.ofOctets path) >>= w.read call.cwd with
    | .ok source => script launch { s with name := path, arguments := more } (Text.octets source)
    | .error _ =>
      let text := "sh: 0: cannot open " ++ String.ofList path ++ ": No such file\n"
      Task.write .err (Text.ofOctets text.toList)
      return .code 2

end EngineDuel.Host.Shell

import EngineDuel.Host.Condition
import EngineDuel.Host.Shell.State

/-!
# Commands of the shell itself

The commands that need no program, as far as they run no script: each sets the number that it ends
with.
-/

namespace EngineDuel.Host.Shell

/-- A line that was read, without its line feed, and whether it had one. -/
def lineText (line : List UInt8) : List Char × Bool :=
  let cs := Text.octets line
  if cs.getLast? = some '\n' then (cs.dropLast, true) else (cs, false)

/-- A line with the meaning of its backslashes: the characters after them are kept as they are. -/
def unescaped (raw : Bool) : List Char → List (Char × Bool)
  | [] => []
  | '\\' :: c :: rest =>
    if raw then ('\\', false) :: unescaped raw (c :: rest) else (c, true) :: unescaped raw rest
  | '\\' :: [] => if raw then [('\\', false)] else []
  | c :: rest => (c, false) :: unescaped raw rest

/-- A line split for some variables, of which the last takes the rest. -/
def splitLine (separators : List Char) : Nat → List (Char × Bool) → List (List Char)
  | 0, _ => []
  | n + 1, s =>
    let blank (x : Char × Bool) : Bool :=
      !x.2 && separators.contains x.1 && (x.1 = ' ' || x.1 = '\t' || x.1 = '\n')
    let separator (x : Char × Bool) : Bool := !x.2 && separators.contains x.1
    let s := s.dropWhile blank
    if n = 0 then [((s.reverse.dropWhile blank).reverse).map Prod.fst]
    else
      let field := s.takeWhile (! separator ·)
      let rest := (s.dropWhile (! separator ·)).dropWhile blank
      let rest := match rest with
        | x :: more => if separator x then more else rest
        | [] => []
      field.map Prod.fst :: splitLine separators n rest

/-- Reads a line into variables. With `-r` a backslash means nothing. -/
def readInto (args : List (List Char)) : Act Unit := do
  let raw := args.contains "-r".toList
  let names := args.filter fun a => a.head? ≠ some '-'
  let line ← liftM Task.readLine
  let (text, whole) := lineText line
  let s ← get
  let values := splitLine s.separators names.length (unescaped raw text)
  modify fun s => (names.zip values).foldl (fun s (n, v) => s.assign n v) s
  Act.setStatus (if whole then 0 else 1)

/-- The number of a signal. -/
def signal? (name : List Char) : Option Nat :=
  let upper := name.map Char.toUpper
  let bare := if "SIG".toList.isPrefixOf upper then upper.drop 3 else upper
  match String.ofList bare with
  | "HUP" => some 1
  | "INT" => some 2
  | "QUIT" => some 3
  | "ABRT" => some 6
  | "KILL" => some 9
  | "USR1" => some 10
  | "USR2" => some 12
  | "PIPE" => some 13
  | "ALRM" => some 14
  | "TERM" => some 15
  | _ => (Printf.natural? bare)

/-- Sends a signal; to the shell itself it is the end. -/
def kill (args : List (List Char)) : Act Unit := do
  let (signal, targets) : Option Nat × List (List Char) := match args with
    | ['-', 's'] :: name :: rest => (signal? name, rest)
    | ('-' :: name) :: rest => (signal? name, rest)
    | rest => (some 15, rest)
  match signal with
  | none => Act.setStatus 2
  | some n =>
    Act.setStatus 0
    if n ≠ 0 && targets.contains State.ownNumber then Act.turn (.exit (.killed n))

/-- Assigns and exports variables. -/
def export_ (args : List (List Char)) : Act Unit := do
  for a in args do
    let name := a.takeWhile (· ≠ '=')
    match a.dropWhile (· ≠ '=') with
    | _ :: value => modify fun s => s.assign name value
    | [] => pure ()
    modify fun s => { s with exported := name :: s.exported }
  Act.setStatus 0

/-- Sets options and arguments. -/
def setOptions (args : List (List Char)) : Act Unit := do
  match args with
  | ['-', '-'] :: rest => modify fun s => { s with arguments := rest }
  | ('-' :: flags) :: _ => if flags.contains 'e' then modify fun s => { s with strict := true }
  | ('+' :: flags) :: _ => if flags.contains 'e' then modify fun s => { s with strict := false }
  | [] => pure ()
  | rest => modify fun s => { s with arguments := rest }
  Act.setStatus 0

/-- The number that an argument tells. -/
def numberOr (default : Nat) (args : List (List Char)) : Nat :=
  ((args.head?.bind Printf.natural?).getD default)

/-- Changes the directory. -/
def changeDirectory (args : List (List Char)) : Act Unit := do
  let s ← get
  let w ← Act.files
  let dir := args.headD ['/']
  match nameOf (.ofOctets dir) >>= w.resolve s.cwd with
  | .ok ⟨place, some .directory⟩ =>
    modify fun s => { s with cwd := place }
    Act.setStatus 0
  | _ =>
    Act.complain ("cd: can't cd to " ++ String.ofList dir)
    Act.setStatus 2

/-- Writes a text by a format. -/
def printf (args : List (List Char)) : Act Unit := do
  let args := if args.head? = some "--".toList then args.drop 1 else args
  match args with
  | [] =>
    Act.complain "printf: usage: printf format [arg ...]"
    Act.setStatus 2
  | format :: rest =>
    let w := Printf.printf format rest
    Act.write .out w.data
    for bad in w.bad do
      Act.complain ("printf: " ++ String.ofList bad ++ ": expected numeric value")
    Act.setStatus (if w.bad.isEmpty then 0 else 1)

/-- Checks a condition. -/
def check (name : String) (args : List (List Char)) : Act Unit := do
  let s ← get
  let inner := if name = "[" then args.dropLast else args
  if name = "[" && args.getLast? ≠ some [']'] then
    Act.complain "[: missing ]"
    Act.setStatus 2
  else
    let result := Condition.holds (← Act.files) s.cwd (inner.map String.ofList)
    match result with
    | .error text => Act.complain (name ++ ": " ++ text)
    | .ok _ => pure ()
    Act.setStatus (Condition.code result)

/-- What a command of the shell does, if there is one of this name. -/
def builtin? (name : String) (args : List (List Char)) : Option (Act Unit) :=
  match name with
  | ":" | "true" | "trap" | "wait" | "umask" | "ulimit" | "hash" => some (Act.setStatus 0)
  | "false" => some (Act.setStatus 1)
  | "echo" => some do
    let s ← get
    Act.write .out (if s.echoEscapes then Printf.shellEcho args else Printf.plainEcho false true args)
    Act.setStatus 0
  | "printf" => some (printf args)
  | "test" | "[" => some (check name args)
  | "read" => some (readInto args)
  | "kill" => some (kill args)
  | "export" | "readonly" | "local" => some (export_ args)
  | "set" => some (setOptions args)
  | "unset" => some do
    modify fun s => { s with bindings := s.bindings.filter fun v => !args.contains v.1 }
    Act.setStatus 0
  | "shift" => some do
    modify fun s => { s with arguments := s.arguments.drop (numberOr 1 args) }
    Act.setStatus 0
  | "cd" => some (changeDirectory args)
  | "pwd" => some do
    Act.write .out (Text.encode (Path.ofPlace (← get).cwd ++ "\n"))
    Act.setStatus 0
  | "exit" => some do
    let s ← get
    Act.turn (.exit (.code (numberOr s.status args % 256)))
  | "return" => some do
    let s ← get
    Act.setStatus (numberOr s.status args % 256)
    Act.turn .return_
  | "break" => some (Act.turn (.leave (numberOr 1 args)))
  | "continue" => some (Act.turn (.again (numberOr 1 args)))
  | _ => none

end EngineDuel.Host.Shell

import EngineDuel.Host.Shell.Token

/-!
# Shell scripts

The commands of the shell as a tree, and how it is read from tokens. Known are simple commands with
assignments and redirections, lists, pipelines, `if`, `while`, `until`, `for`, `case`, groups,
subshells and functions.
-/

namespace EngineDuel.Host.Shell

/-- A redirection of one of the streams 0, 1 and 2. -/
inductive Redirection where
  | input (target : Word)
  | output (stream : Nat) (append : Bool) (target : Word)
  /-- The stream becomes what another one is; a dash closes it. -/
  | duplicate (stream : Nat) (target : Word)
  deriving Repr

/-- A command. -/
inductive Script where
  | nothing
  | simple (line : Nat) (assignments : List (List Char × Word)) (words : List Word)
      (redirections : List Redirection)
  | andThen (first second : Script)
  | ifSucceeds (first second : Script)
  | ifFails (first second : Script)
  | invert (body : Script)
  | pipe (first second : Script)
  | branch (condition yes no : Script)
  | loop (whileFails : Bool) (condition body : Script)
  | each (name : List Char) (items : Option (List Word)) (body : Script)
  /-- `case`: of the chain of clauses the first whose pattern fits is run. -/
  | choose (subject : Word) (clauses : Script)
  | clause (patterns : List Word) (body rest : Script)
  | redirected (body : Script) (redirections : List Redirection)
  | subshell (body : Script)
  | define (name : List Char) (body : Script)
  deriving Repr, Inhabited

namespace Script

/-- A reader of tokens. -/
abbrev Reader := StateT (List Lexeme) Option

/-- The next token. -/
def peek : Reader (Option Token) := do return (← get).head?.map Lexeme.token

/-- Drops the next token. -/
def skip : Reader Unit := modify (List.drop 1)

/-- The next token as a reserved word or other plain word. -/
def peekWord : Reader (Option String) := do
  match ← peek with
  | some (.word w) => return w.plain?.map String.ofList
  | _ => return none

/-- Whether the next token is a certain operator. -/
def atOperator (name : String) : Reader Bool := do return (← peek) == some (.operator name)

/-- Reads a certain operator. -/
def operator (name : String) : Reader Unit := do
  if ← atOperator name then skip else failure

/-- Reads a certain reserved word. -/
def reserved (name : String) : Reader Unit := do
  if (← peekWord) = some name then skip else failure

/-- Drops the ends of lines. -/
def newlines : Reader Unit := modify fun ts => ts.dropWhile fun t => t.token == .newline

/-- Drops what stands between commands of a list; tells whether something did. -/
def separators : Reader Bool := do
  let separates (t : Lexeme) : Bool :=
    t.token == .newline || t.token == .operator ";" || t.token == .operator "&"
  let some first := (← get).head? | return false
  modify fun ts => ts.dropWhile separates
  return separates first

/-- The words that a list of commands ends before. -/
def closers : List String := ["then", "else", "elif", "fi", "do", "done", "esac", "\x7d"]

/-- Whether a list of commands ends here. -/
def atClose : Reader Bool := do
  match ← peek with
  | none => return true
  | some (.operator ")") => return true
  | some (.operator ";;") => return true
  | some (.word w) => return w.plain?.any fun s => closers.contains (String.ofList s)
  | _ => return false

/-- A word of any kind. -/
def aWord : Reader Word := do
  match ← peek with
  | some (.word w) =>
    skip
    return w
  | _ => failure

/-- A redirection, if one comes next. -/
def redirection? : Reader (Option Redirection) := do
  let stream ← match ← peek with
    | some (.stream n) =>
      skip
      pure (some n)
    | _ => pure none
  match ← peek with
  | some (.operator name) =>
    match name with
    | "<" => skip; return some (.input (← aWord))
    | ">" | ">|" => skip; return some (.output (stream.getD 1) false (← aWord))
    | ">>" => skip; return some (.output (stream.getD 1) true (← aWord))
    | ">&" => skip; return some (.duplicate (stream.getD 1) (← aWord))
    | "<&" => skip; return some (.duplicate (stream.getD 0) (← aWord))
    | _ => if stream.isSome then failure else return none
  | _ => if stream.isSome then failure else return none

/-- The redirections that come next. -/
def redirections : Nat → Reader (List Redirection)
  | 0 => failure
  | fuel + 1 => do
    match ← redirection? with
    | some r => return r :: (← redirections fuel)
    | none => return []

/-- The name and the value of an assignment. -/
def assignment? : Word → Option (List Char × Word)
  | .text s false :: rest =>
    let name := s.takeWhile (· ≠ '=')
    match s.dropWhile (· ≠ '=') with
    | '=' :: value =>
      if isName name then some (name, if value = [] then rest else .text value false :: rest)
      else none
    | _ => none
  | _ => none

/-- The rest of a simple command. -/
def simpleRest : Nat → List (List Char × Word) → List Word → List Redirection →
    Reader (List (List Char × Word) × List Word × List Redirection)
  | 0, _, _, _ => failure
  | fuel + 1, assignments, words, rs => do
    match ← redirection? with
    | some r => simpleRest fuel assignments words (rs ++ [r])
    | none =>
      match ← peek with
      | some (.word w) =>
        skip
        match words, assignment? w with
        | [], some a => simpleRest fuel (assignments ++ [a]) words rs
        | _, _ => simpleRest fuel assignments (words ++ [w]) rs
      | _ => return (assignments, words, rs)

/-- The words after `in`, up to the end of the list. -/
def items : Nat → Reader (List Word)
  | 0 => failure
  | fuel + 1 => do
    match ← peek with
    | some (.word w) =>
      skip
      return w :: (← items fuel)
    | _ => return []

/-- The patterns of a clause, between bars. -/
def patterns : Nat → Reader (List Word)
  | 0 => failure
  | fuel + 1 => do
    let w ← aWord
    if ← atOperator "|" then
      skip
      return w :: (← patterns fuel)
    else return [w]

mutual

/-- A list of commands. -/
def list : Nat → Reader Script
  | 0 => failure
  | fuel + 1 => do
    newlines
    if ← atClose then return .nothing
    let first ← conditional fuel
    if ← separators then return .andThen first (← list fuel)
    else return first

/-- Pipelines joined by `&&` and `||`. -/
def conditional : Nat → Reader Script
  | 0 => failure
  | fuel + 1 => do conditionalRest fuel (← pipeline fuel)

/-- More of them. -/
def conditionalRest : Nat → Script → Reader Script
  | 0, _ => failure
  | fuel + 1, first => do
    if ← atOperator "&&" then
      skip
      newlines
      conditionalRest fuel (.ifSucceeds first (← pipeline fuel))
    else if ← atOperator "||" then
      skip
      newlines
      conditionalRest fuel (.ifFails first (← pipeline fuel))
    else return first

/-- A pipeline. -/
def pipeline : Nat → Reader Script
  | 0 => failure
  | fuel + 1 => do
    if (← peekWord) = some "!" then
      skip
      return .invert (← pipelineRest fuel (← command fuel))
    else pipelineRest fuel (← command fuel)

/-- More of it. -/
def pipelineRest : Nat → Script → Reader Script
  | 0, _ => failure
  | fuel + 1, first => do
    if ← atOperator "|" then
      skip
      newlines
      pipelineRest fuel (.pipe first (← command fuel))
    else return first

/-- A command. -/
def command : Nat → Reader Script
  | 0 => failure
  | fuel + 1 => do
    let body ← compound fuel
    match body with
    | .simple .. => return body
    | .define .. => return body
    | _ =>
      match ← redirections fuel with
      | [] => return body
      | rs => return .redirected body rs

/-- A command without redirections after it. -/
def compound : Nat → Reader Script
  | 0 => failure
  | fuel + 1 => do
    if ← atOperator "(" then
      skip
      let body ← list fuel
      operator ")"
      return .subshell body
    match ← peekWord with
    | some "\x7b" =>
      skip
      let body ← list fuel
      reserved "\x7d"
      return body
    | some "if" =>
      skip
      branches fuel
    | some "while" =>
      skip
      repeated fuel false
    | some "until" =>
      skip
      repeated fuel true
    | some "for" =>
      skip
      let some name := (← aWord).plain? | failure
      newlines
      let words ← if (← peekWord) = some "in" then skip; some <$> items fuel else pure none
      let _ ← separators
      return .each name words (← loopBody fuel)
    | some "case" =>
      skip
      let subject ← aWord
      newlines
      reserved "in"
      newlines
      let found ← clauses fuel
      reserved "esac"
      return .choose subject found
    | _ => simpleCommand fuel

/-- A simple command or the definition of a function. -/
def simpleCommand : Nat → Reader Script
  | 0 => failure
  | fuel + 1 => do
    let some first := (← get).head? | failure
    let name := match first.token with
      | .word w => w.plain?
      | _ => none
    let next := (← get)[1]?.map Lexeme.token
    match name, next with
    | some name, some (.operator "(") =>
      skip
      skip
      operator ")"
      newlines
      return .define name (← command fuel)
    | _, _ =>
      let (assignments, words, rs) ← simpleRest fuel [] [] []
      if assignments.isEmpty && words.isEmpty && rs.isEmpty then failure
      return .simple first.line assignments words rs

/-- A condition and what depends on it. -/
def branches : Nat → Reader Script
  | 0 => failure
  | fuel + 1 => do
    let condition ← list fuel
    reserved "then"
    let yes ← list fuel
    match ← peekWord with
    | some "elif" =>
      skip
      return .branch condition yes (← branches fuel)
    | some "else" =>
      skip
      let no ← list fuel
      reserved "fi"
      return .branch condition yes no
    | _ =>
      reserved "fi"
      return .branch condition yes .nothing

/-- A condition and the body of a loop. -/
def repeated : Nat → Bool → Reader Script
  | 0, _ => failure
  | fuel + 1, whileFails => do
    let condition ← list fuel
    return .loop whileFails condition (← loopBody fuel)

/-- The body of a loop. -/
def loopBody : Nat → Reader Script
  | 0 => failure
  | fuel + 1 => do
    newlines
    reserved "do"
    let body ← list fuel
    reserved "done"
    return body

/-- The clauses of `case`. -/
def clauses : Nat → Reader Script
  | 0 => failure
  | fuel + 1 => do
    newlines
    if (← peekWord) = some "esac" then return .nothing
    if ← atOperator "(" then skip
    let ps ← patterns fuel
    operator ")"
    let body ← list fuel
    if ← atOperator ";;" then
      skip
      return .clause ps body (← clauses fuel)
    else return .clause ps body .nothing

end

/-- Reads a script. -/
def read? (source : List Char) : Option Script := do
  let ts ← tokens? (source.length + 1) 1 source
  let (script, rest) ← (list (10 * ts.length + 10)).run ts
  if rest.isEmpty then some script else none

end Script

end EngineDuel.Host.Shell

import EngineDuel.Host.Shell.Word

/-!
# Tokens of shell scripts

A script is read as words, operators and the ends of lines. Blanks stand between tokens, and a `#`
where a word could start begins a comment.
-/

namespace EngineDuel.Host.Shell

/-- A token. -/
inductive Token where
  | word (w : Word)
  | operator (name : String)
  /-- A number right before an operator of redirection. -/
  | stream (n : Nat)
  | newline
  deriving DecidableEq, Repr

/-- A token and the line that it stands on. -/
structure Lexeme where
  token : Token
  line : Nat
  deriving Repr

/-- The operators, the longer ones first. -/
def operators : List String :=
  ["&&", "||", ";;", ">>", ">&", "<&", ">|", "&", "|", ";", "<", ">", "(", ")"]

/-- The operator that a text starts with. -/
def operator? (s : List Char) : Option String :=
  operators.find? fun name => name.toList.isPrefixOf s

/-- The number of line feeds between two places of a text. -/
def linesBetween (s rest : List Char) : Nat :=
  (s.take (s.length - rest.length)).count '\n'

/-- The tokens of a script from some line on; none if a quote is not closed or the script uses what
is not known here. `fuel` is more than the number of characters. -/
def tokens? : Nat → Nat → List Char → Option (List Lexeme)
  | 0, _, _ => none
  | _, _, [] => some []
  | fuel + 1, line, c :: rest => do
    if c = '\n' then return ⟨.newline, line⟩ :: (← tokens? fuel (line + 1) rest)
    else if c = ' ' || c = '\t' then tokens? fuel line rest
    else if c = '\\' && rest.head? = some '\n' then tokens? fuel (line + 1) (rest.drop 1)
    else if c = '#' then tokens? fuel line (rest.dropWhile (· ≠ '\n'))
    else
      match operator? (c :: rest) with
      | some name =>
        if "<<".toList.isPrefixOf (c :: rest) then none
        else
          let after := (c :: rest).drop name.length
          return ⟨.operator name, line⟩ :: (← tokens? fuel line after)
      | none =>
        let digits := (c :: rest).takeWhile Char.isDigit
        let after := (c :: rest).dropWhile Char.isDigit
        let redirects := after.head? = some '<' || after.head? = some '>'
        if digits ≠ [] && redirects then
          let n := digits.foldl (fun n d => n * 10 + (d.toNat - '0'.toNat)) 0
          return ⟨.stream n, line⟩ :: (← tokens? fuel line after)
        else
          let (w, after) ← word? endsWord (rest.length + 2) (c :: rest)
          let lines := linesBetween (c :: rest) after
          return ⟨.word w, line⟩ :: (← tokens? fuel (line + lines) after)

end EngineDuel.Host.Shell

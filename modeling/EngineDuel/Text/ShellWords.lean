/-!
# The words of a command line

A command line is split as a shell would do it, without expanding anything. Words are separated by
space, tab and line feed; a `#` where a word could start begins a comment, which ends with the line.
Single quotes keep everything; double quotes keep everything but a backslash before `$`, a backquote,
a quote, a backslash or a line feed; outside of quotes a backslash keeps the next character. A
backslash and a line feed together are nothing.
-/

namespace EngineDuel.Text

/-- Where in a command line a character stands. -/
inductive ShellPlace where
  /-- In a word, of which a part was read, or between words. -/
  | plain (word : Option (List Char))
  | comment
  | singleQuoted (word : List Char)
  | doubleQuoted (word : List Char)

/-- The blanks between words. -/
def isShellBlank (c : Char) : Bool := c = ' ' || c = '\t' || c = '\n'

/-- The characters that a backslash keeps from their meaning between double quotes. -/
def isShellSpecial (c : Char) : Bool := c = '$' || c = '\x60' || c = '"' || c = '\\'

/-- The words from some place on; the word that was begun there is kept last character first. There
are none if a quote is not closed or the text ends with a backslash. -/
def shellWordsFrom? : ShellPlace → List Char → Option (List (List Char))
  | .plain none, [] => some []
  | .plain (some word), [] => some [word.reverse]
  | .comment, [] => some []
  | .singleQuoted _, [] => none
  | .doubleQuoted _, [] => none
  | .comment, c :: rest => shellWordsFrom? (if c = '\n' then .plain none else .comment) rest
  | .singleQuoted word, c :: rest =>
    shellWordsFrom? (if c = '\'' then .plain (some word) else .singleQuoted (c :: word)) rest
  | .doubleQuoted _, ['\\'] => none
  | .doubleQuoted word, '\\' :: c :: rest =>
    shellWordsFrom? (.doubleQuoted (if c = '\n' then word
      else if isShellSpecial c then c :: word else c :: '\\' :: word)) rest
  | .doubleQuoted word, c :: rest =>
    shellWordsFrom? (if c = '"' then .plain (some word) else .doubleQuoted (c :: word)) rest
  | .plain _, ['\\'] => none
  | .plain word, '\\' :: c :: rest =>
    shellWordsFrom? (.plain (some (if c = '\n' then word.getD [] else c :: word.getD []))) rest
  | .plain word, c :: rest =>
    if isShellBlank c then
      let words := shellWordsFrom? (.plain none) rest
      match word with
      | some w => words.map (w.reverse :: ·)
      | none => words
    else if c = '#' && word.isNone then shellWordsFrom? .comment rest
    else if c = '\'' then shellWordsFrom? (.singleQuoted (word.getD [])) rest
    else if c = '"' then shellWordsFrom? (.doubleQuoted (word.getD [])) rest
    else shellWordsFrom? (.plain (some (c :: word.getD []))) rest

/-- The words of a command line. -/
def shellWords? (s : String) : Option (List String) :=
  (shellWordsFrom? (.plain none) s.toList).map fun words => words.map String.ofList

end EngineDuel.Text

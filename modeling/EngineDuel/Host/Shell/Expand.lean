import EngineDuel.Host.Shell.Arithmetic
import EngineDuel.Host.Shell.Pattern
import EngineDuel.Host.Shell.State

/-!
# Expansion of words

A word becomes a number of fields. What is replaced outside of quotes is split where the separators
of the shell stand; what stands in quotes is not. Names of files are not expanded.

The functions take what runs a script for its output, because a word may contain one.
-/

namespace EngineDuel.Host.Shell

/-- A text each of whose characters is marked if it stands in quotes. -/
abbrev Marked := List (Char × Bool)

/-- A text with the same mark throughout. -/
def marked (quoted : Bool) (s : List Char) : Marked := s.map (·, quoted)

/-- The fields of a word so far. -/
structure Fields where
  finished : List Marked := []
  /-- The field that is being written, if one was begun. -/
  current : Option Marked := none
  /-- Whether the last field was ended by a blank. -/
  afterBlank : Bool := false

namespace Fields

/-- More of the current field. -/
def add (f : Fields) (s : Marked) : Fields :=
  { f with current := some (f.current.getD [] ++ s), afterBlank := false }

/-- The end of the current field, if there is one. -/
def cut (f : Fields) : Fields :=
  match f.current with
  | some field => { f with finished := f.finished ++ [field], current := none }
  | none => f

/-- More text, split at separators. -/
def addSplit (f : Fields) (separators s : List Char) : Fields :=
  s.foldl (fun f c =>
    if separators.contains c then
      if c = ' ' || c = '\t' || c = '\n' then
        { f.cut with afterBlank := f.current.isSome || f.afterBlank }
      else if f.current.isNone && f.afterBlank then { f with afterBlank := false }
      else { (f.add []).cut with afterBlank := false }
    else f.add [(c, false)]) f

/-- More fields, each of them in quotes. -/
def addQuoted (f : Fields) : List (List Char) → Fields
  | [] => f
  | [s] => f.add (marked true s)
  | s :: rest => addQuoted (f.add (marked true s)).cut rest

/-- All fields. -/
def all (f : Fields) : List Marked := f.cut.finished

/-- The text of the current field. -/
def text (f : Fields) : Marked := f.current.getD []

end Fields

/-- What runs a script and keeps its output. -/
abbrev Substitute := List Char → Act (List UInt8)

/-- The output of a script without the line feeds at its end. -/
def outputText (data : List UInt8) : List Char :=
  ((Text.octets data).reverse.dropWhile (· = '\n')).reverse

/-- How deep words may stand within words. -/
def wordDepth : Nat := 16

/-- Adds an expanded text. -/
def addValue (split quoted : Bool) (separators s : List Char) (f : Fields) : Fields :=
  if quoted then f.add (marked true s)
  else if split then f.addSplit separators s
  else f.add (marked false s)

/-- Expands the parts of a word; `split` tells whether text may be split into fields. -/
def expandParts (substitute : Substitute) : Nat → Bool → Word → Fields → Act Fields
  | 0, _, _, f => return f
  | depth + 1, split, w, f => do
    let inner (quoted split : Bool) (source : List Char) (f : Fields) : Act Fields :=
      let parts :=
        if quoted then doubleQuoted? false (source.length + 1) source
        else word? (fun _ => false) (source.length + 1) source
      match parts with
      | some (parts, _) => expandParts substitute depth split parts f
      | none => return f
    let plain (source : List Char) : Act (List Char) := do
      return (← inner true false source {}).text.map Prod.fst
    let foldStep (f : Fields) (part : Part) : Act Fields := do
      match part with
      | .text s quoted => return if s = [] && !quoted then f else f.add (marked quoted s)
      | .command source quoted =>
        let data ← substitute source
        return addValue split quoted (← get).separators (outputText data) f
      | .arithmetic source quoted =>
        let source ← plain source
        let s ← get
        let value (name : List Char) : Option Int :=
          match Text.trim ((s.parameter? name).getD []) with
          | [] => some 0
          | digits => Printf.integer? digits
        match Arithmetic.eval? value source with
        | some n => return addValue split quoted s.separators (toString n).toList f
        | none =>
          Act.complain "arithmetic expression: expecting primary"
          Act.turn (.exit (.code 2))
          return f
      | .parameter name use quoted =>
        let s ← get
        let value := s.parameter? name
        let shown (v : List Char) : Fields := addValue split quoted s.separators v f
        match use with
        | .value =>
          if name = ['@'] && quoted && split then return f.addQuoted s.arguments
          else if (name = ['@'] || name = ['*']) && !quoted && split then
            return s.arguments.foldl (fun f a => (f.addSplit s.separators a).cut) f
          else return shown (value.getD [])
        | .length => return shown (Nat.toDigits 10 (value.getD []).length)
        | .fallback kind colon source =>
          let isSet := value.isSome && !(colon && value == some [])
          if kind = '+' then
            if isSet then inner quoted split source f else return shown []
          else if isSet then return shown (value.getD [])
          else if kind = '-' then inner quoted split source f
          else if kind = '=' then
            let v ← plain source
            modify fun s => s.assign name v
            return shown v
          else
            let v ← plain source
            let text := if v = [] then "parameter not set" else String.ofList v
            Act.complain (String.ofList name ++ ": " ++ text)
            Act.turn (.exit (.code 2))
            return f
        | .strip fromEnd longest source =>
          let pattern := (← inner false false source {}).text
          return shown (Pattern.strip fromEnd longest (Pattern.ofMarked pattern.length pattern)
            (value.getD []))
    w.foldlM foldStep f

/-- The fields of words. -/
def expandWords (substitute : Substitute) (ws : List Word) : Act (List (List Char)) := do
  let fields ← ws.mapM fun w => do
    return (← expandParts substitute wordDepth true w {}).all
  return fields.flatten.map fun field => field.map Prod.fst

/-- The text of a word that is not split. -/
def expandText (substitute : Substitute) (w : Word) : Act (List Char) := do
  return (← expandParts substitute wordDepth false w {}).text.map Prod.fst

/-- The pattern that a word is. -/
def expandPattern (substitute : Substitute) (w : Word) : Act (List Sign) := do
  let text := (← expandParts substitute wordDepth false w {}).text
  return Pattern.ofMarked text.length text

end EngineDuel.Host.Shell

import EngineDuel.Text.Blank

/-!
# What a line of an engine means

An engine answers every command with one terminal unit: a line that starts with `=` or `?`, or a
stream of lines between two marks. Every other line is a remark, or blank. Blanks at the ends of a
line have no meaning.
-/

namespace EngineDuel.Wire

/-- The mark that starts a stream. -/
def streamStart : Char := '\x02'

/-- The mark that ends a stream. -/
def streamEnd : Char := '\x03'

/-- The meaning of a line outside of streams. -/
inductive Reply where
  | blank
  /-- The command was carried out; there is nothing to tell. -/
  | done
  /-- The command was carried out, with an answer. -/
  | answer (text : List Char)
  /-- A stream starts, with this text on the first line. -/
  | opening (text : List Char)
  /-- The command was refused. -/
  | refusal (message : List Char)
  /-- The line does not answer the command. -/
  | remark (text : List Char)
  deriving DecidableEq, Repr

/-- The meaning of what follows an equals sign. At most one space stands between the sign and the
mark of a stream. -/
def Reply.ofSuccess (rest : List Char) : Reply :=
  let rest := match rest with
    | ' ' :: more => more
    | _ => rest
  match rest with
  | c :: more =>
    if c = streamStart then .opening more
    else
      let text := Text.trim rest
      if text = [] then .done else .answer text
  | [] => .done

/-- The meaning of a line. -/
def Reply.ofLine (line : List Char) : Reply :=
  match Text.trim line with
  | [] => .blank
  | '?' :: rest => .refusal (Text.trim rest)
  | '=' :: rest => .ofSuccess rest
  | text => .remark text

end EngineDuel.Wire

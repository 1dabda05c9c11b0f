import EngineDuel.Text.Blank

/-!
# Failures with causes

A failure of a program is told with what led to it: a list of texts, the outermost first.
-/

namespace EngineDuel

/-- A failure and its causes, outermost first. -/
structure Failure where
  causes : List String
  deriving DecidableEq, Repr

namespace Failure

/-- A failure without a cause of its own. -/
def because (text : String) : Failure := ⟨[text]⟩

/-- The failure of something larger. -/
def within (f : Failure) (text : String) : Failure := ⟨text :: f.causes⟩

/-- A failure on one line. -/
def line (f : Failure) : String := ": ".intercalate f.causes

/-- A cause in a report, indented. -/
def indented (text : String) : String := "    " ++ text

/-- A failure as a program reports it at its end. Several causes are numbered. -/
def report (f : Failure) : String :=
  match f.causes with
  | [] => "Error: \n"
  | [text] => "Error: " ++ text ++ "\n"
  | [text, cause] => "Error: " ++ text ++ "\n\nCaused by:\n" ++ indented cause ++ "\n"
  | text :: causes =>
    let numbered := causes.mapIdx fun i cause => indented (toString i ++ ": " ++ cause) ++ "\n"
    "Error: " ++ text ++ "\n\nCaused by:\n" ++ String.join numbered

end Failure

/-- What ends well has gone well in each of its parts. -/
theorem exists_of_bind_ok {ε α β : Type} {x : Except ε α} {f : α → Except ε β} {b : β}
    (h : x >>= f = .ok b) : ∃ a, x = .ok a ∧ f a = .ok b := by
  cases x with
  | error e => cases h
  | ok a => exact ⟨a, rfl, h⟩

end EngineDuel

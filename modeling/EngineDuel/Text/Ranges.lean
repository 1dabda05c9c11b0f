/-!
# Classes of characters given by ranges

A Unicode property is a list of ranges of code points, both ends included.
-/

namespace EngineDuel.Text

/-- Ranges of code points, both ends included. -/
abbrev Ranges := Array (Nat × Nat)

/-- Whether a code point lies in one of the ranges. -/
def Ranges.covers (ranges : Ranges) (n : Nat) : Bool :=
  ranges.any fun r => r.1 ≤ n && n ≤ r.2

end EngineDuel.Text

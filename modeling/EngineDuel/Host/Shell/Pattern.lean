/-!
# Patterns

The patterns of `case` and of `${...}`: a star fits any text, a question mark any character, and
brackets one of the characters in them.
-/

namespace EngineDuel.Host.Shell

/-- What one sign of a pattern fits. -/
inductive Sign where
  | exactly (c : Char)
  | anyOne
  | anyText
  /-- One of some ranges of characters, or none of them. -/
  | oneOf (inverted : Bool) (ranges : List (Char × Char))
  deriving DecidableEq, Repr

namespace Pattern

/-- The ranges between brackets, up to the closing one, and what follows. `first` tells that a
closing bracket counts as a character. -/
def ranges? (first : Bool) : List Char → Option (List (Char × Char) × List Char)
  | [] => none
  | [c] => if c = ']' && !first then some ([], []) else none
  | [c, d] =>
    if c = ']' && !first then some ([], [d])
    else (ranges? false [d]).map fun (rs, rest) => ((c, c) :: rs, rest)
  | c :: d :: e :: rest =>
    if c = ']' && !first then some ([], d :: e :: rest)
    else if d = '-' && e ≠ ']' then
      (ranges? false rest).map fun (rs, rest) => ((c, e) :: rs, rest)
    else (ranges? false (d :: e :: rest)).map fun (rs, rest) => ((c, c) :: rs, rest)

/-- The signs of a pattern whose characters are marked where they stand in quotes. `fuel` is the
number of characters. -/
def ofMarked : Nat → List (Char × Bool) → List Sign
  | 0, _ => []
  | _, [] => []
  | fuel + 1, (c, true) :: rest => .exactly c :: ofMarked fuel rest
  | fuel + 1, ('*', false) :: rest => .anyText :: ofMarked fuel rest
  | fuel + 1, ('?', false) :: rest => .anyOne :: ofMarked fuel rest
  | fuel + 1, ('[', false) :: rest =>
    let inner := rest.map Prod.fst
    let (inverted, body) := match inner with
      | '!' :: body => (true, body)
      | body => (false, body)
    match ranges? true body with
    | some (rs, after) => .oneOf inverted rs :: ofMarked fuel (rest.drop (rest.length - after.length))
    | none => .exactly '[' :: ofMarked fuel rest
  | fuel + 1, (c, false) :: rest => .exactly c :: ofMarked fuel rest

/-- Whether a sign other than a star fits a character. -/
def Sign.fits (s : Sign) (c : Char) : Bool :=
  match s with
  | .exactly d => c = d
  | .anyOne => true
  | .anyText => false
  | .oneOf inverted rs => (rs.any fun r => r.1 ≤ c && c ≤ r.2) != inverted

/-- Whether a pattern fits a whole text. -/
def fits : List Sign → List Char → Bool
  | [], s => s.isEmpty
  | .anyText :: p, [] => fits p []
  | .anyText :: p, c :: s => fits p (c :: s) || fits (.anyText :: p) s
  | _ :: _, [] => false
  | sign :: p, c :: s => Sign.fits sign c && fits p s
termination_by p s => p.length + s.length

/-- A text without the start, or the end, that a pattern fits: the longest or the shortest one. -/
def strip (fromEnd longest : Bool) (p : List Sign) (s : List Char) : List Char :=
  let cuts := List.range (s.length + 1)
  let cuts := if longest == fromEnd then cuts else cuts.reverse
  let fitting := cuts.find? fun n =>
    if fromEnd then fits p (s.drop n) else fits p (s.take n)
  match fitting with
  | some n => if fromEnd then s.take n else s.drop n
  | none => s

end Pattern

end EngineDuel.Host.Shell

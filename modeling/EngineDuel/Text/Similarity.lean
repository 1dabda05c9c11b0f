/-!
# How alike two texts are

Two characters of two texts match if they are equal and not too far apart. The likeness of two texts
is between zero and one. It is the mean of three shares: of matched characters in the one and in the
other, and of matches that are in the same order in both.
-/

namespace EngineDuel.Text

/-- The first place from `low` to below `high` that holds `c` and is not yet taken, where the list
begins at place `place`. -/
def firstMatch (c : Char) (low high : Nat) (taken : List Nat) : Nat → List Char → Option Nat
  | _, [] => none
  | place, d :: rest =>
    if low ≤ place && place < high && d = c && !taken.contains place then some place
    else firstMatch c low high taken (place + 1) rest

/-- The matches of two texts: the matched characters of the first, in order, and the places of the
second that they match. A match is at most `reach` places away. -/
def matchAll (reach : Nat) (b : List Char) : Nat → List Char → List Nat → List Char × List Nat
  | _, [], taken => ([], taken)
  | i, c :: rest, taken =>
    match firstMatch c (i - reach) (i + reach + 1) taken 0 b with
    | none => matchAll reach b (i + 1) rest taken
    | some j =>
      let (cs, taken) := matchAll reach b (i + 1) rest (j :: taken)
      (c :: cs, taken)

/-- The likeness of two texts. -/
def likeness (a b : List Char) : Float :=
  if a.isEmpty && b.isEmpty then 1
  else if a.isEmpty || b.isEmpty then 0
  else
    let reach := max a.length b.length / 2 - 1
    let (inA, taken) := matchAll reach b 0 a []
    let inB := (b.zipIdx.filter fun x => taken.contains x.2).map (·.1)
    let count := inA.length
    let swapped := ((inA.zip inB).filter fun x => x.1 ≠ x.2).length / 2
    if count = 0 then 0
    else
      let m := Float.ofNat count
      (m / Float.ofNat a.length + m / Float.ofNat b.length + Float.ofNat (count - swapped) / m) / 3

/-- The candidate most like a text, if one is like it at all; of equals the last one. -/
def mostAlike? (text : String) (candidates : List String) : Option String :=
  let scored := candidates.map fun c => (likeness text.toList c.toList, c)
  let best := scored.foldl (fun (best : Option (Float × String)) x =>
    if !(x.1 > 0.7) then best
    else match best with
      | none => some x
      | some y => if x.1 >= y.1 then some x else best) none
  best.map (·.2)

end EngineDuel.Text

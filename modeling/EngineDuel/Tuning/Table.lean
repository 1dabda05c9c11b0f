/-!
# The table of a search

For each value that was tried, the rating that was seen last. A value is its bit pattern: zero and
minus zero are two values, and so are two NaNs with different bits. Values are listed in ascending
order, which agrees with the order of numbers and puts NaNs at both ends by their sign.
-/

namespace EngineDuel.Tuning

/-- The place of a bit pattern in the order of values. -/
def place (bits : UInt64) : Nat :=
  if bits.toNat < 0x8000000000000000 then bits.toNat + 0x8000000000000000
  else 0xffffffffffffffff - bits.toNat

theorem place_injective {a b : UInt64} (h : place a = place b) : a = b := by
  have ha := a.toNat_lt
  have hb := b.toNat_lt
  apply UInt64.toNat.inj
  unfold place at h
  split at h <;> split at h <;> omega

/-- Values in ascending order, each with a rating. -/
abbrev Table := List (UInt64 × Float)

namespace Table

/-- The rating of a value. -/
def get? (t : Table) (bits : UInt64) : Option Float := t.lookup bits

/-- The table with another rating for one value. -/
def set (bits : UInt64) (rating : Float) : Table → Table
  | [] => [(bits, rating)]
  | (key, old) :: rest =>
    if key = bits then (bits, rating) :: rest
    else if place bits < place key then (bits, rating) :: (key, old) :: rest
    else (key, old) :: set bits rating rest

/-- The table of one value. -/
def seeded (bits : UInt64) (rating : Float) : Table := set bits rating []

/-- Whether two tables list the same values with equal ratings. -/
def same : Table → Table → Bool
  | [], [] => true
  | (key, rating) :: rest, (key', rating') :: rest' =>
    key == key' && rating == rating' && same rest rest'
  | _, _ => false

end Table

end EngineDuel.Tuning

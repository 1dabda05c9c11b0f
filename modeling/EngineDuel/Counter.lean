/-!
# Counters of 32 bits

Games, wins and turns are counted in 32 bits, and a count that would not fit stops the program.
-/

namespace EngineDuel

/-- A count outgrew its 32 bits. -/
inductive Overflow where
  | onAddition
  deriving DecidableEq, Repr

/-- The text with which the program stops. -/
def Overflow.message : Overflow → String
  | .onAddition => "attempt to add with overflow"

/-- The next count. -/
def next (n : UInt32) : Except Overflow UInt32 :=
  if n.toNat + 1 < UInt32.size then .ok (n + 1) else .error .onAddition

theorem next_eq_ok_iff {n m : UInt32} : next n = .ok m ↔ m.toNat = n.toNat + 1 := by
  unfold next UInt32.size
  have hm := m.toNat_lt
  split
  · rename_i h
    simp only [Except.ok.injEq]
    constructor
    · rintro rfl
      simp only [UInt32.toNat_add, UInt32.toNat_one]
      omega
    · intro e
      apply UInt32.toNat.inj
      simp only [UInt32.toNat_add, UInt32.toNat_one]
      omega
  · simp only [reduceCtorEq, false_iff]
    omega

end EngineDuel

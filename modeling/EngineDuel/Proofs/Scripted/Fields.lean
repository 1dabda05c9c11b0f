import EngineDuel.Proofs.Text.Trim
import EngineDuel.Scripted.Engine
import Mathlib.Data.Nat.Notation
import Mathlib.Data.List.Basic

/-!
# The fields of the scripted engine

No two moves of a scripted engine go to the same field (`coordinate_inj`). So after `n` moves the
first `n` fields are taken, by X and O in turn, and the others are free (`cell_placed`).
-/

namespace EngineDuel.Scripted

/-! ## Names of fields -/

/-- Letters and digits of names are neither blank nor marks of streams. -/
def IsPlain (c : Char) : Prop := 48 ≤ c.toNat ∧ c.toNat < 128

theorem IsPlain.not_isBlank {c : Char} (h : IsPlain c) : Text.isBlank c = false := by
  unfold IsPlain at h
  unfold Text.isBlank
  simp only [Bool.or_eq_false_iff, Bool.and_eq_false_iff, decide_eq_false_iff_not, beq_eq_false_iff_ne]
  omega

theorem IsPlain.of_isDigit {c : Char} (h : c.isDigit = true) : IsPlain c := by
  simp only [Char.isDigit, Bool.and_eq_true, decide_eq_true_eq] at h
  have hle : c.toNat ≤ 57 := h.2
  exact ⟨h.1, by omega⟩

/-- The letter of a column. -/
def columnLetter (n : ℕ) : Char := Char.ofNat ('a'.toNat + n % boardSize)

theorem toNat_columnLetter (n : ℕ) : (columnLetter n).toNat = 97 + n % 15 := by
  have hall : ∀ column < 15, (Char.ofNat (97 + column)).toNat = 97 + column := by decide
  exact hall _ (Nat.mod_lt _ (by decide))

theorem coordinate_eq (n : ℕ) : coordinate n = columnLetter n :: Nat.toDigits 10 (n / 15 + 1) := rfl

theorem isPlain_of_mem_coordinate {n : ℕ} {c : Char} (hc : c ∈ coordinate n) : IsPlain c := by
  rw [coordinate_eq] at hc
  rcases List.mem_cons.mp hc with rfl | hc
  · have hlt : n % 15 < 15 := Nat.mod_lt _ (by decide)
    unfold IsPlain
    rw [toNat_columnLetter]
    omega
  · exact .of_isDigit (Nat.isDigit_of_mem_toDigits (by decide) (by decide) hc)

theorem coordinate_ne_nil (n : ℕ) : coordinate n ≠ [] := List.cons_ne_nil _ _

/-- Each move goes to a field of its own. -/
theorem coordinate_inj {m n : ℕ} : coordinate m = coordinate n ↔ m = n := by
  refine ⟨fun h => ?_, fun h => congrArg _ h⟩
  rw [coordinate_eq, coordinate_eq, List.cons.injEq] at h
  have hcolumn : 97 + m % 15 = 97 + n % 15 := by
    rw [← toNat_columnLetter, ← toNat_columnLetter, h.1]
  have hrow : m / 15 + 1 = n / 15 + 1 := by
    have := congrArg (Nat.ofDigitChars 10 · 0) h.2
    simpa only [Nat.ofDigitChars_ten_toDigits] using this
  omega

/-! ## The board after some moves -/

/-- The first `n` moves of a game between scripted engines. -/
def placed (n : ℕ) : List (List Char) := (List.range n).map coordinate

theorem placed_succ (n : ℕ) : placed (n + 1) = placed n ++ [coordinate n] := by
  unfold placed
  rw [List.range_succ, List.map_append]
  rfl

@[simp] theorem length_placed (n : ℕ) : (placed n).length = n := by
  unfold placed
  rw [List.length_map, List.length_range]

/-- What stands on field `k` after `n` moves. -/
def stone (n k : ℕ) : Char := if k < n then if k % 2 = 0 then 'X' else 'O' else '.'

/-- Row `r` after `n` moves. -/
def boardRow (n r : ℕ) : List Char :=
  (List.range boardSize).map fun column => stone n (r * boardSize + column)

/-- The rows of the board after `n` moves, the highest first. -/
def boardRows (n : ℕ) : List (List Char) := (List.range boardSize).reverse.map (boardRow n)

theorem cell_placed {s : State} {n : ℕ} (h : s.moves = placed n) (k : ℕ) : s.cell k = stone n k := by
  unfold State.cell stone
  rw [h]
  by_cases hk : k < n
  · have hidx : (placed n).idxOf? (coordinate k) = some k := by
      refine List.idxOf?_eq_some_iff.mpr ⟨by rwa [length_placed], by simp [placed], ?_⟩
      intro j hj
      simp only [placed, List.getElem_map, List.getElem_range, coordinate_inj]
      exact Nat.ne_of_lt hj
    rw [hidx, if_pos hk]
  · have hidx : (placed n).idxOf? (coordinate k) = none := by
      refine List.idxOf?_eq_none_iff.mpr fun hmem => ?_
      obtain ⟨j, hj, heq⟩ := List.mem_map.mp hmem
      rw [coordinate_inj.mp heq, List.mem_range] at hj
      exact hk hj
    rw [hidx, if_neg hk]

theorem rows_placed {s : State} {n : ℕ} (h : s.moves = placed n) : s.rows = boardRows n := by
  unfold State.rows State.row boardRows boardRow
  simp only [cell_placed h]

end EngineDuel.Scripted

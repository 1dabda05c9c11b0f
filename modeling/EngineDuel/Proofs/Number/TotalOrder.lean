import EngineDuel.Proofs.Number.Order
import EngineDuel.Tuning.Table

/-!
# The total order of doubles

Any two doubles can be compared by their bits (`Precedes`): numbers come as their values do, minus
zero before zero, a NaN with a minus sign before every number and one without behind every number.
Of two NaNs with the same sign the quiet one is farther out, and of two that are both quiet or both
not, the one with the larger payload.

The places of a table are in this order (`precedes_iff`), so it is the order in which values are
listed. To see it, the bits of a double are taken apart into their sign and their pattern:

1. A NaN is a double whose pattern is above that of infinity (`isNaN_iff`), and every other double
   has the bits that it is made from (`toBits_ofBits`).
2. Places (`place_minus`, `place_plus`) and the ranks of numbers (`rank_minus`, `rank_plus`) are the
   patterns with their signs, and NaNs of one sign are told apart by their patterns
   (`nanParts_lt_iff`).
-/

namespace EngineDuel.Number

open Float.Model Float.Model.UnpackedFloat

/-! ## The order -/

/-- Bits of a NaN. -/
def IsNaN (bits : UInt64) : Prop := (Float.ofBits bits).isNaN = true

/-- Bits with a minus sign. -/
def HasMinus (bits : UInt64) : Prop := signBit ≤ bits.toNat

instance : DecidablePred HasMinus := fun bits =>
  inferInstanceAs (Decidable (signBit ≤ bits.toNat))

/-- The bit that makes a NaN quiet, as a number. -/
def quietBit : Nat := 0x8000000000000

/-- What tells NaNs of one sign apart: whether they are quiet, and then the payload. -/
def nanParts (bits : UInt64) : Bool ×ₗ ℕ :=
  toLex (decide (quietBit ≤ bits.toNat % binade), bits.toNat % quietBit)

/-- **The total order of doubles**, each given by its bits. -/
inductive Precedes (a b : UInt64) : Prop where
  | byValue (h : Float.ofBits a < Float.ofBits b)
  | zeros (ha : a = (-0.0 : Float).toBits) (hb : b = (0.0 : Float).toBits)
  | nanBelow (ha : IsNaN a) (hb : ¬IsNaN b) (hminus : HasMinus a)
  | nanAbove (ha : ¬IsNaN a) (hb : IsNaN b) (hplus : ¬HasMinus b)
  | nanSigns (ha : IsNaN a) (hb : IsNaN b) (hminus : HasMinus a) (hplus : ¬HasMinus b)
  | minusNaNs (ha : IsNaN a) (hb : IsNaN b) (hminus : HasMinus a ∧ HasMinus b)
      (h : nanParts b < nanParts a)
  | plusNaNs (ha : IsNaN a) (hb : IsNaN b) (hplus : ¬HasMinus a ∧ ¬HasMinus b)
      (h : nanParts a < nanParts b)

/-! ## Sign and pattern -/

variable {a b bits : UInt64}

/-- The pattern of a double, given by its bits. -/
def patternOf (bits : UInt64) : ℕ := bits.toNat % signBit

theorem patternOf_lt (bits : UInt64) : patternOf bits < signBit := Nat.mod_lt _ (by decide)

theorem toNat_of_minus (h : HasMinus bits) : bits.toNat = signBit + patternOf bits := by
  have hbits := bits.toNat_lt
  simp only [HasMinus, patternOf, signBit] at *
  omega

theorem toNat_of_plus (h : ¬HasMinus bits) : bits.toNat = patternOf bits :=
  (Nat.mod_eq_of_lt (not_le.1 h)).symm

theorem eq_of_minus (ha : HasMinus a) (hb : HasMinus b) (h : patternOf a = patternOf b) : a = b := by
  apply UInt64.toNat.inj
  rw [toNat_of_minus ha, toNat_of_minus hb, h]

theorem eq_of_plus (ha : ¬HasMinus a) (hb : ¬HasMinus b) (h : patternOf a = patternOf b) :
    a = b := by
  apply UInt64.toNat.inj
  rw [toNat_of_plus ha, toNat_of_plus hb, h]

/-! ## NaNs -/

theorem isNaNBits_iff (bits : UInt64) :
    @isNaNBits Format.binary64 bits.toBitVec = true ↔ infinityPattern < patternOf bits := by
  have hexponent := toNat_unpackExponent bits.toBitVec
  have hmantissa := toNat_unpackMantissa bits.toBitVec
  have htop : (-1#11).toNat = 2047 := rfl
  rw [UInt64.toNat_toBitVec] at hexponent hmantissa
  simp only [isNaNBits, decide_eq_true_iff, ne_eq, ← BitVec.toNat_inj, hexponent, hmantissa, htop,
    BitVec.toNat_ofNat, Nat.zero_mod, infinityPattern, patternOf, signBit, binade]
  omega

/-- A double keeps the bits that it is made from, but all NaNs are made the same. -/
theorem toBitVec_ofBits (bits : UInt64) :
    (Float.ofBits bits).toBits.toBitVec =
      if @isNaNBits Format.binary64 bits.toBitVec then packedNaN Format.binary64
      else bits.toBitVec :=
  @pack_unpack Format.binary64 bits.toBitVec (by decide)

theorem isNaN_iff_not_isNumber : IsNaN bits ↔ ¬IsNumber (Float.ofBits bits) := by
  rw [isNumber_iff, not_not]
  exact UnpackedFloat.isNaN_iff

theorem isNaN_iff : IsNaN bits ↔ infinityPattern < patternOf bits := by
  have hbits := toBitVec_ofBits bits
  rw [isNaN_iff_not_isNumber, IsNumber, not_le, pattern, ← UInt64.toNat_toBitVec, hbits]
  -- The double of a NaN has other bits, but they are those of a NaN too.
  split
  · next h => exact iff_of_true (by decide) ((isNaNBits_iff bits).1 h)
  · rfl

theorem toBits_ofBits (h : ¬IsNaN bits) : (Float.ofBits bits).toBits = bits := by
  have hbits := toBitVec_ofBits bits
  rw [if_neg fun hnan => h (isNaN_iff.2 ((isNaNBits_iff bits).1 hnan))] at hbits
  exact UInt64.toBitVec_inj.1 hbits

theorem nanParts_lt_iff (ha : IsNaN a) (hb : IsNaN b) :
    nanParts a < nanParts b ↔ patternOf a < patternOf b := by
  -- Above infinity all bits of the exponent are set, so only the mantissas differ.
  rw [isNaN_iff] at ha hb
  rw [nanParts, nanParts, Prod.Lex.toLex_lt_toLex]
  show (decide _ < decide _ ∨ decide _ = decide _ ∧ _ < _) ↔ _
  rw [Bool.lt_iff, decide_eq_false_iff_not, decide_eq_true_iff, decide_eq_decide]
  simp only [infinityPattern, patternOf, signBit, quietBit, binade] at *
  omega

/-! ## Numbers -/

theorem rank_minus (h : ¬IsNaN bits) (hminus : HasMinus bits) :
    rank (Float.ofBits bits) = -(patternOf bits : ℤ) := by
  have hnegative : isNegative (Float.ofBits bits) = true := by
    rw [isNegative, toBits_ofBits h]
    exact decide_eq_true hminus
  rw [rank, sign, if_pos hnegative, pattern, toBits_ofBits h]
  rfl

theorem rank_plus (h : ¬IsNaN bits) (hplus : ¬HasMinus bits) :
    rank (Float.ofBits bits) = patternOf bits := by
  have hpositive : isNegative (Float.ofBits bits) = false := by
    rw [isNegative, toBits_ofBits h]
    exact decide_eq_false hplus
  rw [rank, sign, if_neg (ne_true_of_eq_false hpositive), pattern, toBits_ofBits h]
  rfl

theorem ofBits_lt_iff (ha : ¬IsNaN a) (hb : ¬IsNaN b) :
    Float.ofBits a < Float.ofBits b ↔ rank (Float.ofBits a) < rank (Float.ofBits b) := by
  rw [isNaN_iff_not_isNumber, not_not] at ha hb
  rw [lt_iff, and_iff_right ha, and_iff_right hb]

end EngineDuel.Number

/-! ## Places -/

namespace EngineDuel.Tuning

open Number

variable {a b bits : UInt64}

theorem place_minus (h : HasMinus bits) : place bits = signBit - 1 - patternOf bits := by
  have hbits := toNat_of_minus h
  simp only [HasMinus, place, signBit] at *
  split <;> omega

theorem place_plus (h : ¬HasMinus bits) : place bits = signBit + patternOf bits := by
  have hbits := toNat_of_plus h
  simp only [HasMinus, place, signBit] at *
  split <;> omega

theorem place_lt_of_minus (h : IsNaN bits) (hminus : HasMinus bits) :
    place bits < signBit - 1 - infinityPattern := by
  have hpattern := patternOf_lt bits
  rw [isNaN_iff] at h
  rw [place_minus hminus]
  omega

theorem lt_place_of_plus (h : IsNaN bits) (hplus : ¬HasMinus bits) :
    signBit + infinityPattern < place bits := by
  rw [isNaN_iff] at h
  rw [place_plus hplus]
  omega

/-- The places of numbers are between those of NaNs. -/
theorem place_number (h : ¬IsNaN bits) :
    signBit - 1 - infinityPattern ≤ place bits ∧ place bits ≤ signBit + infinityPattern := by
  rw [isNaN_iff] at h
  by_cases hminus : HasMinus bits
  · rw [place_minus hminus]
    omega
  · rw [place_plus hminus]
    omega

/-- The places of numbers come as their values do. -/
theorem place_lt_of_value (h : Float.ofBits a < Float.ofBits b) : place a < place b := by
  have hpa := patternOf_lt a
  obtain ⟨ha, hb, hrank⟩ := lt_iff.1 h
  rw [← isNaN_iff_not_isNumber.not_left] at ha hb
  by_cases hsa : HasMinus a <;> by_cases hsb : HasMinus b
  · rw [rank_minus ha hsa, rank_minus hb hsb] at hrank
    rw [place_minus hsa, place_minus hsb]
    omega
  · rw [place_minus hsa, place_plus hsb]
    omega
  · rw [rank_plus ha hsa, rank_minus hb hsb] at hrank
    omega
  · rw [rank_plus ha hsa, rank_plus hb hsb] at hrank
    rw [place_plus hsa, place_plus hsb]
    omega

theorem place_lt_of_precedes (h : Precedes a b) : place a < place b := by
  cases h with
  | byValue h => exact place_lt_of_value h
  | zeros ha hb =>
    rw [ha, hb]
    decide
  | nanBelow ha hb hminus => exact (place_lt_of_minus ha hminus).trans_le (place_number hb).1
  | nanAbove ha hb hplus => exact (place_number ha).2.trans_lt (lt_place_of_plus hb hplus)
  | nanSigns ha hb hminus hplus =>
    have hpattern := patternOf_lt a
    rw [place_minus hminus, place_plus hplus]
    omega
  | minusNaNs ha hb hminus h =>
    have hpattern := patternOf_lt a
    rw [nanParts_lt_iff hb ha] at h
    rw [place_minus hminus.1, place_minus hminus.2]
    omega
  | plusNaNs ha hb hplus h =>
    rw [nanParts_lt_iff ha hb] at h
    rw [place_plus hplus.1, place_plus hplus.2]
    omega

/-- A number with a smaller place has a smaller value, or both are zero. -/
theorem precedes_of_numbers (ha : ¬IsNaN a) (hb : ¬IsNaN b) (h : place a < place b) :
    Precedes a b := by
  by_cases hsa : HasMinus a <;> by_cases hsb : HasMinus b
  · refine .byValue ((ofBits_lt_iff ha hb).2 ?_)
    rw [place_minus hsa, place_minus hsb] at h
    rw [rank_minus ha hsa, rank_minus hb hsb]
    omega
  · by_cases hzero : patternOf a = 0 ∧ patternOf b = 0
    · exact .zeros (eq_of_minus hsa (by decide) hzero.1) (eq_of_plus hsb (by decide) hzero.2)
    · refine .byValue ((ofBits_lt_iff ha hb).2 ?_)
      rw [rank_minus ha hsa, rank_plus hb hsb]
      omega
  · rw [place_plus hsa, place_minus hsb] at h
    omega
  · refine .byValue ((ofBits_lt_iff ha hb).2 ?_)
    rw [place_plus hsa, place_plus hsb] at h
    rw [rank_plus ha hsa, rank_plus hb hsb]
    omega

/-- A NaN with a smaller place than another one. -/
theorem precedes_of_nans (ha : IsNaN a) (hb : IsNaN b) (h : place a < place b) :
    Precedes a b := by
  by_cases hsa : HasMinus a <;> by_cases hsb : HasMinus b
  · refine .minusNaNs ha hb ⟨hsa, hsb⟩ ((nanParts_lt_iff hb ha).2 ?_)
    rw [place_minus hsa, place_minus hsb] at h
    omega
  · exact .nanSigns ha hb hsa hsb
  · rw [place_plus hsa, place_minus hsb] at h
    omega
  · refine .plusNaNs ha hb ⟨hsa, hsb⟩ ((nanParts_lt_iff ha hb).2 ?_)
    rw [place_plus hsa, place_plus hsb] at h
    omega

/-- **The places of a table** are in the total order of doubles. -/
theorem precedes_iff : Precedes a b ↔ place a < place b := by
  refine ⟨place_lt_of_precedes, fun h => ?_⟩
  by_cases ha : IsNaN a <;> by_cases hb : IsNaN b
  · exact precedes_of_nans ha hb h
  -- Of a NaN and a number, the place tells the sign of the NaN.
  · refine .nanBelow ha hb ?_
    by_contra hplus
    exact (h.trans_le (place_number hb).2).not_gt (lt_place_of_plus ha hplus)
  · refine .nanAbove ha hb fun hminus => ?_
    exact (h.trans (place_lt_of_minus hb hminus)).not_ge (place_number ha).1
  · exact precedes_of_numbers ha hb h

end EngineDuel.Tuning

import EngineDuel.Number.Binary64
import Mathlib

/-!
# Doubles and their patterns

A double is computed with in parts: its kind, its sign, and for a finite double other than zero a
mantissa and an exponent. The pattern of the double gives these parts.

1. The bits of a double are its sign and its pattern (`toNat_toBits`), and the pattern is an exponent
   and a mantissa side by side (`toNat_packComponents`).
2. The parts of a double are of one of four shapes (`Shape`), each of which says what the pattern is
   (`shape`).
3. Sign and pattern make the double that they were taken from (`ofPattern_pattern`).
-/

namespace EngineDuel.Number

open Float.Model Float.Model.UnpackedFloat

/-! ## Bits -/

theorem toNat_packComponents (s : Sign) (e : BitVec 11) (m : BitVec 52) :
    (packComponents Format.binary64 s e m).toNat =
      s.toBitVec.toNat * signBit + (e.toNat * binade + m.toNat) := by
  have he := e.isLt
  have hm := m.isLt
  rw [packComponents, BitVec.toNat_append, BitVec.toNat_append,
    ← Nat.shiftLeft_add_eq_or_of_lt (by simpa using hm),
    ← Nat.shiftLeft_add_eq_or_of_lt (by simpa using he)]
  simp only [Nat.shiftLeft_eq, signBit, binade]
  omega

theorem toNat_unpackMantissa (b : BitVec 64) :
    (@unpackMantissa Format.binary64 b).toNat = b.toNat % binade := by
  simp [unpackMantissa, binade]

theorem toNat_unpackExponent (b : BitVec 64) :
    (@unpackExponent Format.binary64 b).toNat = b.toNat / binade % 2048 := by
  simp [unpackExponent, binade, Nat.shiftRight_eq_div_pow]

theorem toNat_unpackSign (b : BitVec 64) :
    (@unpackSign Format.binary64 b).toNat = b.toNat / signBit := by
  have hb := b.isLt
  simp [unpackSign, signBit, Nat.shiftRight_eq_div_pow]
  omega

/-- The sign of a double. -/
def sign (x : Float) : Sign := if isNegative x then .negative else .positive

theorem toNat_sign (x : Float) : (sign x).toBitVec.toNat = x.toBits.toNat / signBit := by
  have hbits := x.toBits.toNat_lt
  unfold sign
  split
  · next h =>
    have hle : signBit ≤ x.toBits.toNat := of_decide_eq_true h
    simp only [signBit] at hle ⊢
    have hone : Sign.negative.toBitVec.toNat = 1 := rfl
    omega
  · next h =>
    have hlt : ¬signBit ≤ x.toBits.toNat := of_decide_eq_false (Bool.eq_false_iff.2 h)
    simp only [signBit] at hlt ⊢
    have hzero : Sign.positive.toBitVec.toNat = 0 := rfl
    omega

theorem ofBitVec_unpackSign (x : Float) :
    Sign.ofBitVec (@unpackSign Format.binary64 x.toBits.toBitVec) = sign x := by
  have hsign : @unpackSign Format.binary64 x.toBits.toBitVec = (sign x).toBitVec := by
    rw [← BitVec.toNat_inj, toNat_unpackSign, toNat_sign, UInt64.toNat_toBitVec]
  rw [hsign, Sign.ofBitVec_toBitVec]

/-- The bits of a double are its sign and its pattern. -/
theorem toNat_toBits (x : Float) :
    x.toBits.toNat = (sign x).toBitVec.toNat * signBit + pattern x := by
  rw [toNat_sign, pattern, Nat.div_add_mod']

/-! ## Shapes -/

/-- What the parts of a double tell about its pattern and its sign. -/
inductive Shape (b : ℕ) (s : Sign) : Float.Model.UnpackedFloat → Prop where
  | notANumber (h : infinityPattern < b) : Shape b s .notANumber
  | infinity (h : b = infinityPattern) : Shape b s (.infinity s)
  | zero (h : b = 0) : Shape b s (.zero s)
  | finite {m : ℕ} {e : ℤ} {hm : 0 < m} (hb : (b : ℤ) = (e + 1074) * binade + m)
      (hlt : b < infinityPattern) (hwidth : m < 2 * binade) (he : -1074 ≤ e)
      (hnormal : m < binade → e = -1074) : Shape b s (.finite s m e hm)

theorem shape (x : Float) : Shape (pattern x) (sign x) x.toModel.unpack := by
  have hexponent := toNat_unpackExponent x.toBits.toBitVec
  have hmantissa := toNat_unpackMantissa x.toBits.toBitVec
  have hbits := x.toBits.toBitVec.isLt
  rw [UInt64.toNat_toBitVec] at hexponent hmantissa hbits
  have hpattern : pattern x = (@unpackExponent Format.binary64 x.toBits.toBitVec).toNat *
      binade + (@unpackMantissa Format.binary64 x.toBits.toBitVec).toNat := by
    rw [hexponent, hmantissa]
    simp only [pattern, signBit, binade]
    omega
  have hunpack : x.toModel.unpack = UnpackedFloat.unpack Format.binary64 x.toBits.toBitVec := rfl
  rw [hunpack, UnpackedFloat.unpack, ofBitVec_unpackSign]
  have he := (@unpackExponent Format.binary64 x.toBits.toBitVec).isLt
  have hm := (@unpackMantissa Format.binary64 x.toBits.toBitVec).isLt
  have hbias : (Format.binary64.exponentBias : ℤ) = 1023 := rfl
  have hdigits : (Format.binary64.mantissaBitsWithoutImplicit : ℤ) = 52 := rfl
  have htop : (-1#11).toNat = 2047 := rfl
  have himplicit : (1#1 ++ @unpackMantissa Format.binary64 x.toBits.toBitVec).toNat =
      binade + (@unpackMantissa Format.binary64 x.toBits.toBitVec).toNat := by
    rw [BitVec.toNat_append, ← Nat.shiftLeft_add_eq_or_of_lt hm]
    rfl
  simp only [hbias, hdigits, ← BitVec.toNat_inj, htop, BitVec.toNat_ofNat, Nat.zero_mod]
  split_ifs with h₁ h₂ h₃ h₄
  · refine .infinity ?_
    rw [hpattern, h₁, h₂]
    rfl
  · refine .notANumber ?_
    rw [hpattern, h₁]
    simp only [infinityPattern, binade]
    omega
  · refine .zero ?_
    rw [hpattern, h₃, h₄]
    rfl
  · refine .finite ?_ ?_ ?_ ?_ ?_
    all_goals simp only [hpattern, h₃, infinityPattern, binade] at *
    all_goals omega
  · refine .finite ?_ ?_ ?_ ?_ ?_
    all_goals simp only [hpattern, himplicit, infinityPattern, binade] at *
    all_goals omega

/-- Sign and pattern of a double make it again. -/
theorem ofPattern_pattern (x : Float) : ofPattern (isNegative x) (pattern x) = x := by
  have hbits : (if isNegative x then signBit + pattern x else pattern x) = x.toBits.toNat := by
    rw [toNat_toBits, sign]
    split_ifs
    · exact congrArg (· + pattern x) (Nat.one_mul signBit).symm
    · exact (Nat.zero_add (pattern x)).symm
  rw [ofPattern, hbits, UInt64.ofNat_toNat, Float.ofBits_toBits]

end EngineDuel.Number

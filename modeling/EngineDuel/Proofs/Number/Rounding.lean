import EngineDuel.Number.Shortest
import Mathlib.Order.Monotone.Basic
import Mathlib.Tactic.Ring

/-!
# Rounding

1. The values of patterns ascend (`scaled_strictMono`), and the search by bits finds the largest
   pattern whose value does not exceed a ratio (`floorPattern_eq`).
2. The test whether a ratio rounds to a pattern agrees with the rounding itself
   (`roundRatio_eq_of_roundsTo`).
3. The decimal that is written for a pattern rounds to the pattern (`roundsTo_shortest`).
-/

namespace EngineDuel.Number

/-! ## Values of patterns -/

theorem binade_pos : 0 < binade := by decide

theorem scaled_of_lt {b : ℕ} (h : b < binade) : scaled b = b := if_pos h

theorem scaled_of_le {b : ℕ} (h : binade ≤ b) :
    scaled b = (binade + b % binade) * 2 ^ (b / binade - 1) := if_neg (not_lt.2 h)

theorem scaled_lt_succ (b : ℕ) : scaled b < scaled (b + 1) := by
  have hdiv := Nat.div_add_mod b binade
  have hmod : b % binade < binade := Nat.mod_lt b binade_pos
  rcases lt_trichotomy (b + 1) binade with h | h | h
  · rw [scaled_of_lt h, scaled_of_lt (by omega)]
    exact Nat.lt_succ_self b
  · have hbinade : scaled binade = binade := by decide
    rw [scaled_of_lt (by omega), h, hbinade]
    omega
  · obtain ⟨q, hq⟩ : ∃ q, b / binade = q + 1 :=
      Nat.exists_eq_succ_of_ne_zero (Nat.div_pos (by omega) binade_pos).ne'
    have hpow : 0 < 2 ^ q := Nat.two_pow_pos q
    rw [hq] at hdiv
    rw [scaled_of_le (by omega), scaled_of_le (b := b + 1) h.le, hq, Nat.add_sub_cancel]
    by_cases hlast : b % binade + 1 = binade
    · -- The next power of two begins.
      have hdiv' : (b + 1) / binade = q + 2 := by
        rw [← hdiv, Nat.add_assoc, hlast, ← Nat.mul_succ, Nat.mul_div_cancel_left _ binade_pos]
      have hmod' : (b + 1) % binade = 0 := by
        rw [← hdiv, Nat.add_assoc, hlast, ← Nat.mul_succ, Nat.mul_mod_right]
      rw [hdiv', hmod', Nat.add_zero]
      calc (binade + b % binade) * 2 ^ q
          < (binade + binade) * 2 ^ q := Nat.mul_lt_mul_of_pos_right (by omega) hpow
        _ = binade * 2 ^ (q + 1) := by rw [pow_succ, ← two_mul]; ring
    · have hlt : b % binade + 1 < binade := by omega
      have hdiv' : (b + 1) / binade = q + 1 := by
        rw [← hdiv, Nat.add_assoc, Nat.mul_add_div binade_pos, Nat.div_eq_of_lt hlt, Nat.add_zero]
      have hmod' : (b + 1) % binade = b % binade + 1 := by
        rw [← hdiv, Nat.add_assoc, Nat.mul_add_mod, Nat.mod_eq_of_lt hlt, hdiv]
      rw [hdiv', hmod', Nat.add_sub_cancel]
      exact Nat.mul_lt_mul_of_pos_right (by omega) hpow

theorem scaled_strictMono : StrictMono scaled := strictMono_nat_of_lt_succ scaled_lt_succ

/-! ## The search by bits -/

/-- The search finds the largest number for which a property holds that holds up to some bound. -/
theorem largestSuch_spec {p : ℕ → Bool} (hp : ∀ a b, a ≤ b → p b = true → p a = true)
    (bits start : ℕ) (hstart : p start = true) :
    p (largestSuch p bits start) = true ∧
      ∀ x < start + 2 ^ bits, p x = true → x ≤ largestSuch p bits start := by
  induction bits generalizing start with
  | zero =>
    refine ⟨hstart, fun x hx _ => ?_⟩
    rw [largestSuch]
    omega
  | succ bits ih =>
    rw [largestSuch]
    have hdouble : 2 ^ (bits + 1) = 2 ^ bits + 2 ^ bits := by rw [pow_succ, mul_two]
    split_ifs with hnext
    · obtain ⟨hfound, hlargest⟩ := ih _ hnext
      refine ⟨hfound, fun x hx => hlargest x ?_⟩
      show x < start + 2 ^ bits + 2 ^ bits
      omega
    · obtain ⟨hfound, hlargest⟩ := ih start hstart
      refine ⟨hfound, fun x _ hpx => hlargest x ?_ hpx⟩
      by_contra hge
      exact hnext (hp _ x (not_lt.1 hge) hpx)

theorem floorPattern_eq {b num den : ℕ} (hb : b < infinityPattern)
    (hlow : scaled b * den ≤ num * one) (hhigh : num * one < scaled (b + 1) * den) :
    floorPattern num den = b := by
  have hantitone (x y : ℕ) (hxy : x ≤ y) (hy : decide (scaled y * den ≤ num * one) = true) :
      decide (scaled x * den ≤ num * one) = true := by
    rw [decide_eq_true_iff] at hy ⊢
    exact (Nat.mul_le_mul_right den (scaled_strictMono.monotone hxy)).trans hy
  have hzero : decide (scaled 0 * den ≤ num * one) = true := by
    rw [scaled_of_lt binade_pos, Nat.zero_mul]
    exact decide_eq_true (Nat.zero_le _)
  obtain ⟨hfound, hlargest⟩ := largestSuch_spec hantitone 63 0 hzero
  rw [decide_eq_true_iff] at hfound
  have hge := hlargest b (lt_trans hb (by decide)) (decide_eq_true hlow)
  have hlt : scaled (largestSuch (fun b => scaled b * den ≤ num * one) 63 0) < scaled (b + 1) :=
    Nat.lt_of_mul_lt_mul_right (hfound.trans_lt hhigh)
  have hle := Nat.le_of_lt_succ (scaled_strictMono.lt_iff_lt.1 hlt)
  show min infinityPattern (largestSuch (fun b => scaled b * den ≤ num * one) 63 0) = b
  rw [le_antisymm hle hge, min_eq_right hb.le]

/-! ## Rounding -/

/-- What the test says. -/
theorem roundsTo_iff {b num den : ℕ} : roundsTo b num den = true ↔
    (b = 0 ∨ (scaled (b - 1) + scaled b) * den < 2 * (num * one) ∨
      2 * (num * one) = (scaled (b - 1) + scaled b) * den ∧ b % 2 = 0) ∧
    (2 * (num * one) < (scaled b + scaled (b + 1)) * den ∨
      2 * (num * one) = (scaled b + scaled (b + 1)) * den ∧ b % 2 = 0) := by
  simp only [roundsTo, Bool.and_eq_true, Bool.or_eq_true, beq_iff_eq, decide_eq_true_iff]

/-- **A ratio that lies between the middles around a pattern rounds to it.** -/
theorem roundRatio_eq_of_roundsTo {b num den : ℕ} (hb : b < infinityPattern) (hden : 0 < den)
    (h : roundsTo b num den = true) : roundRatio num den = b := by
  obtain ⟨hlower, hupper⟩ := roundsTo_iff.1 h
  have habove : scaled b * den < scaled (b + 1) * den :=
    Nat.mul_lt_mul_of_pos_right (scaled_lt_succ b) hden
  rw [Nat.add_mul] at hupper
  unfold roundRatio
  rcases Nat.lt_or_ge (num * one) (scaled b * den) with hlt | hge
  · -- The ratio is rounded up to the pattern.
    obtain ⟨c, rfl⟩ : ∃ c, b = c + 1 := by
      refine Nat.exists_eq_succ_of_ne_zero fun hzero => ?_
      rw [hzero, scaled_of_lt binade_pos, Nat.zero_mul] at hlt
      exact Nat.not_lt_zero _ hlt
    have hbelow : scaled c * den < scaled (c + 1) * den :=
      Nat.mul_lt_mul_of_pos_right (scaled_lt_succ c) hden
    rw [Nat.add_sub_cancel, Nat.add_mul] at hlower
    have hfloor : floorPattern num den = c := floorPattern_eq (by omega) (by omega) hlt
    simp only [hfloor, Nat.add_mul]
    split_ifs <;> omega
  · have hfloor : floorPattern num den = b := floorPattern_eq hb hge (by omega)
    simp only [hfloor, Nat.add_mul]
    split_ifs <;> omega

/-! ## The shortest decimal -/

theorem roundsTo_of_onGrid? {b : ℕ} {k : ℤ} {d : Decimal} (h : onGrid? b k = some d) :
    roundsTo b d.num d.den = true := by
  unfold onGrid? at h
  dsimp only at h
  split at h
  · next hlow _ =>
    cases h
    exact hlow
  · next _ hhigh =>
    cases h
    exact hhigh
  · next hlow hhigh =>
    split_ifs at h
    · cases h
      exact hlow
    · cases h
      exact hhigh
  · cases h

theorem roundsTo_of_firstOnGrid? {b steps : ℕ} {k : ℤ} {d : Decimal}
    (h : firstOnGrid? b steps k = some d) : roundsTo b d.num d.den = true := by
  induction steps generalizing k with
  | zero => cases h
  | succ steps ih =>
    rw [firstOnGrid?] at h
    split at h
    · next hgrid =>
      cases h
      exact roundsTo_of_onGrid? hgrid
    · exact ih h

/-- The decimal with all digits is the value of the pattern. -/
theorem exact_num_mul_one (b : ℕ) : (exact b).num * one = scaled b * (exact b).den := by
  have hzero : (-1074 : ℤ).toNat = 0 := rfl
  have hneg : (- -1074 : ℤ).toNat = 1074 := rfl
  unfold exact Decimal.num Decimal.den one
  rw [hzero, hneg]
  generalize 1074 = n
  rw [Nat.mul_assoc, Nat.mul_assoc, Nat.mul_left_comm (Nat.pow 5 n)]
  exact congrArg (scaled b * ·) ((Nat.one_mul _).trans (Nat.mul_pow 5 2 n).symm)

theorem den_pos (d : Decimal) : 0 < d.den := Nat.pow_pos (by decide)

theorem roundsTo_exact (b : ℕ) : roundsTo b (exact b).num (exact b).den = true := by
  have hden := den_pos (exact b)
  have habove := Nat.mul_lt_mul_of_pos_right (scaled_lt_succ b) hden
  rw [roundsTo_iff, exact_num_mul_one, Nat.add_mul, Nat.add_mul]
  refine ⟨?_, .inl (by omega)⟩
  rcases Nat.eq_zero_or_pos b with hb | hb
  · exact .inl hb
  · have hbelow := Nat.mul_lt_mul_of_pos_right (scaled_strictMono (Nat.sub_one_lt hb.ne')) hden
    exact .inr (.inl (by omega))

/-- **The decimal that is written for a pattern rounds to it.** -/
theorem roundsTo_shortest {b : ℕ} (hb : b ≠ 0) :
    roundsTo b (shortest b).num (shortest b).den = true := by
  rw [shortest, if_neg hb]
  cases h : firstOnGrid? b 24 (coarsest b) with
  | none => exact roundsTo_exact b
  | some d => exact roundsTo_of_firstOnGrid? h

/-! ## Decimals within the range of doubles -/

theorem pow_le_of_length {n k : ℕ} (hn : n ≠ 0) (h : (Nat.toDigits 10 n).length = k + 1) :
    10 ^ k ≤ n := by
  rcases Nat.eq_zero_or_pos k with rfl | hk
  · exact Nat.one_le_iff_ne_zero.2 hn
  · by_contra hlt
    have := (Nat.length_toDigits_le_iff (by decide) hk).2 (not_le.1 hlt)
    omega

theorem lt_pow_length (n : ℕ) : n < 10 ^ (Nat.toDigits 10 n).length :=
  (Nat.length_toDigits_le_iff (by decide) Nat.length_toDigits_pos).1 le_rfl

/-- What rounds to a finite pattern does not exceed the value after the largest of them. -/
theorem num_le_of_roundsTo {b num den : ℕ} (hb : b < infinityPattern)
    (h : roundsTo b num den = true) : num * one ≤ scaled infinityPattern * den := by
  have hle := Nat.mul_le_mul_right den (scaled_strictMono.monotone (Nat.succ_le_of_lt hb))
  have hlt := Nat.mul_le_mul_right den (scaled_strictMono.monotone hb.le)
  obtain ⟨-, hupper⟩ := roundsTo_iff.1 h
  rw [Nat.add_mul] at hupper
  rw [Nat.succ_eq_add_one] at hle
  omega

/-- What rounds to another pattern than zero is at least half the smallest value. -/
theorem den_le_of_roundsTo {b num den : ℕ} (hb : b ≠ 0) (h : roundsTo b num den = true) :
    den ≤ num * (2 * one) := by
  have hpos : 1 ≤ scaled b :=
    (Nat.zero_le (scaled 0)).trans_lt (scaled_strictMono (Nat.pos_of_ne_zero hb))
  have hden := Nat.mul_le_mul_right den hpos
  obtain ⟨hlower, -⟩ := roundsTo_iff.1 h
  rw [Nat.add_mul] at hlower
  rw [Nat.mul_left_comm]
  omega

/-- The values of all finite patterns are far below `10^400` and far above `10^-401`. -/
theorem pow_bounds : ∃ n, n = 400 ∧ scaled infinityPattern < 10 ^ n * one ∧ 2 * one < 10 ^ (n + 1) :=
  ⟨400, rfl, by decide +kernel, by decide +kernel⟩

/-- **A decimal that rounds to a pattern is read as it.** -/
theorem ofDecimal_eq {b digits : ℕ} {e : ℤ} (negative : Bool) (hb : b ≠ 0)
    (hb' : b < infinityPattern)
    (h : roundsTo b (digits * Nat.pow 10 e.toNat) (Nat.pow 10 (-e).toNat) = true) :
    ofDecimal negative digits e = ofPattern negative b := by
  have hden : 0 < 10 ^ (-e).toNat := Nat.pow_pos (by decide)
  have hmost : digits * 10 ^ e.toNat * one ≤ scaled infinityPattern * 10 ^ (-e).toNat :=
    num_le_of_roundsTo hb' h
  have hleast : 10 ^ (-e).toNat ≤ digits * 10 ^ e.toNat * (2 * one) := den_le_of_roundsTo hb h
  have hround : roundRatio (digits * 10 ^ e.toNat) (10 ^ (-e).toNat) = b :=
    roundRatio_eq_of_roundsTo hb' hden h
  have hdigits : digits ≠ 0 := by
    rintro rfl
    rw [Nat.zero_mul, Nat.zero_mul] at hleast
    omega
  have hnum : 0 < digits * 10 ^ e.toNat :=
    Nat.mul_pos (Nat.pos_of_ne_zero hdigits) (Nat.pow_pos (by decide))
  obtain ⟨k, hk⟩ : ∃ k, (Nat.toDigits 10 digits).length = k + 1 :=
    Nat.exists_eq_succ_of_ne_zero Nat.length_toDigits_pos.ne'
  have hlow := pow_le_of_length hdigits hk
  have hhigh := lt_pow_length digits
  obtain ⟨n, hn, hmax, hmin⟩ := pow_bounds
  have htop : ¬400 < e + (k + 1 : ℕ) := by
    intro hgt
    have hlarge : 10 ^ n * 10 ^ (-e).toNat ≤ digits * 10 ^ e.toNat := by
      calc 10 ^ n * 10 ^ (-e).toNat = 10 ^ (n + (-e).toNat) := (pow_add ..).symm
        _ ≤ 10 ^ (k + e.toNat) := Nat.pow_le_pow_right (by decide) (by omega)
        _ = 10 ^ k * 10 ^ e.toNat := pow_add ..
        _ ≤ digits * 10 ^ e.toNat := Nat.mul_le_mul_right _ hlow
    have hlt := Nat.mul_lt_mul_of_pos_right hmax hden
    have hle := Nat.mul_le_mul_right one hlarge
    rw [Nat.mul_right_comm] at hle
    omega
  have hbottom : ¬e + (k + 1 : ℕ) < -400 := by
    intro hlt
    have hsmall : digits * 10 ^ e.toNat * 10 ^ (n + 1) ≤ 10 ^ (-e).toNat := by
      calc digits * 10 ^ e.toNat * 10 ^ (n + 1) = digits * 10 ^ (e.toNat + (n + 1)) := by
            rw [Nat.mul_assoc, ← pow_add]
        _ ≤ 10 ^ (k + 1) * 10 ^ (e.toNat + (n + 1)) := Nat.mul_le_mul_right _ (hk ▸ hhigh.le)
        _ = 10 ^ (k + 1 + (e.toNat + (n + 1))) := (pow_add ..).symm
        _ ≤ 10 ^ (-e).toNat := Nat.pow_le_pow_right (by decide) (by omega)
    exact absurd (hsmall.trans hleast) (not_le.2 (Nat.mul_lt_mul_of_pos_left hmin hnum))
  unfold ofDecimal
  dsimp only
  rw [hk, if_neg hdigits, if_neg htop, if_neg hbottom]
  refine congrArg (ofPattern negative) ?_
  by_cases he : 0 ≤ e
  · have hzero : (-e).toNat = 0 := by omega
    rw [hzero, pow_zero] at hround
    rw [if_pos he]
    exact hround
  · have hzero : e.toNat = 0 := by omega
    rw [hzero, pow_zero, Nat.mul_one] at hround
    rw [if_neg he]
    exact hround

end EngineDuel.Number

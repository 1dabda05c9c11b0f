import EngineDuel.Proofs.Number.Patterns
import Mathlib.Order.Compare

/-!
# The order of doubles

Doubles are compared by their parts. Those that are no NaN are ordered as their patterns with their
signs (`rank`) are; both zeros stand at the same place, and a NaN is neither below nor above anything.
-/

namespace EngineDuel.Number

open Float.Model Float.Model.UnpackedFloat

/-- Whether a double is no NaN. -/
def IsNumber (x : Float) : Prop := pattern x ≤ infinityPattern

instance (x : Float) : Decidable (IsNumber x) :=
  inferInstanceAs (Decidable (pattern x ≤ infinityPattern))

/-- The place of a double that is no NaN. -/
def rank (x : Float) : ℤ := (sign x).apply (pattern x)

theorem lt_eq_compare {a b : ℤ} : .lt = compare a b ↔ a < b := by
  rw [eq_comm, compare_lt_iff_lt]

theorem eq_eq_compare {a b : ℤ} : .eq = compare a b ↔ a = b := by
  rw [eq_comm, compare_eq_iff_eq]

theorem gt_eq_compare {a b : ℤ} : .gt = compare a b ↔ b < a := by
  rw [eq_comm, compare_gt_iff_gt]

/-- The patterns of finite doubles other than zero are ordered by exponents, then by mantissas. -/
theorem compare_parts {b₁ b₂ m₁ m₂ : ℕ} {e₁ e₂ : ℤ} (hb₁ : (b₁ : ℤ) = (e₁ + 1074) * binade + m₁)
    (hb₂ : (b₂ : ℤ) = (e₂ + 1074) * binade + m₂) (hwidth₁ : m₁ < 2 * binade)
    (hwidth₂ : m₂ < 2 * binade) (he₁ : -1074 ≤ e₁) (he₂ : -1074 ≤ e₂)
    (hnormal₁ : m₁ < binade → e₁ = -1074) (hnormal₂ : m₂ < binade → e₂ = -1074) :
    (compare e₁ e₂).then (compare m₁ m₂) = compare (b₁ : ℤ) b₂ := by
  simp only [binade] at *
  rcases lt_trichotomy e₁ e₂ with he | rfl | he
  · rw [compare_lt_iff_lt.2 he, Ordering.lt_then, lt_eq_compare]
    omega
  · rw [compare_eq_iff_eq.2 rfl, Ordering.eq_then]
    rcases lt_trichotomy m₁ m₂ with hm | rfl | hm
    · rw [compare_lt_iff_lt.2 hm, lt_eq_compare]
      omega
    · rw [compare_eq_iff_eq.2 rfl, eq_eq_compare]
      omega
    · rw [compare_gt_iff_gt.2 hm, gt_eq_compare]
      omega
  · rw [compare_gt_iff_gt.2 he, Ordering.gt_then, gt_eq_compare]
    omega

theorem Shape.compare_eq {b₁ b₂ : ℕ} {s₁ s₂ : Sign} {u₁ u₂ : Float.Model.UnpackedFloat}
    (h₁ : Shape b₁ s₁ u₁) (h₂ : Shape b₂ s₂ u₂) (hb₁ : b₁ ≤ infinityPattern)
    (hb₂ : b₂ ≤ infinityPattern) :
    UnpackedFloat.compare u₁ u₂ = some (compare (s₁.apply b₁) (s₂.apply b₂)) := by
  have hnn : compare Sign.negative Sign.negative = .eq := rfl
  have hnp : compare Sign.negative Sign.positive = .lt := rfl
  have hpn : compare Sign.positive Sign.negative = .gt := rfl
  have hpp : compare Sign.positive Sign.positive = .eq := rfl
  have hpos : 0 < infinityPattern := by decide
  rcases h₁ with h₁ | h₁ | h₁ | @⟨m₁, e₁, hm₁, hv₁, hlt₁, hwidth₁, he₁, hnormal₁⟩ <;>
    rcases h₂ with h₂ | h₂ | h₂ | @⟨m₂, e₂, hm₂, hv₂, hlt₂, hwidth₂, he₂, hnormal₂⟩
  case finite.finite =>
    have hparts := compare_parts hv₁ hv₂ hwidth₁ hwidth₂ he₁ he₂ hnormal₁ hnormal₂
    simp only [binade] at hv₁ hv₂
    cases s₁ <;> cases s₂ <;>
      simp only [UnpackedFloat.compare, Sign.apply, hparts, Option.some.injEq, lt_eq_compare,
        gt_eq_compare]
    · rw [Int.compare_swap]
      rcases lt_trichotomy (b₁ : ℤ) b₂ with hb | hb | hb
      · rw [compare_gt_iff_gt.2 hb, gt_eq_compare]
        omega
      · rw [compare_eq_iff_eq.2 hb.symm, eq_eq_compare]
        omega
      · rw [compare_lt_iff_lt.2 hb, lt_eq_compare]
        omega
    · omega
    · omega
  all_goals
    cases s₁ <;> cases s₂ <;>
      first
      | omega
      | simp only [UnpackedFloat.compare, Sign.apply, Option.some.injEq, lt_eq_compare,
          gt_eq_compare, eq_eq_compare, hnn, hnp, hpn, hpp, binade] at *
        omega

variable {x y z : Float}

theorem isNumber_iff : IsNumber x ↔ x.toModel.unpack ≠ .notANumber := by
  have hshape := shape x
  rw [IsNumber]
  generalize x.toModel.unpack = u at hshape ⊢
  cases hshape with
  | notANumber h => exact iff_of_false (by omega) fun hne => hne rfl
  | infinity h => exact iff_of_true (by omega) nofun
  | zero h => exact iff_of_true (by omega) nofun
  | finite _ h => exact iff_of_true (by omega) nofun

theorem compare_unpack (x y : Float) :
    UnpackedFloat.compare x.toModel.unpack y.toModel.unpack =
      if IsNumber x ∧ IsNumber y then some (compare (rank x) (rank y)) else none := by
  split
  · next h => exact (shape x).compare_eq (shape y) h.1 h.2
  · next h =>
    simp only [isNumber_iff, not_and_or, not_not] at h
    rcases h with hx | hy
    · rw [hx, UnpackedFloat.compare]
    · rw [hy]
      cases x.toModel.unpack <;> rfl

/-- **The order of doubles** is that of their places. -/
theorem lt_iff : x < y ↔ IsNumber x ∧ IsNumber y ∧ rank x < rank y := by
  have hlt : x < y ↔
      (UnpackedFloat.compare x.toModel.unpack y.toModel.unpack == some .lt) = true :=
    decide_eq_true_iff
  rw [hlt, compare_unpack, beq_iff_eq, ← and_assoc]
  split
  · next h => rw [Option.some.injEq, compare_lt_iff_lt, and_iff_right h]
  · next h => exact iff_of_false nofun fun h' => h h'.1

theorem le_iff : x ≤ y ↔ IsNumber x ∧ IsNumber y ∧ rank x ≤ rank y := by
  have hle : x ≤ y ↔
      (UnpackedFloat.compare x.toModel.unpack y.toModel.unpack).any (·.isLE) = true :=
    decide_eq_true_iff
  rw [hle, compare_unpack, ← and_assoc]
  split
  · next h => rw [Option.any_some, Int.isLE_compare, and_iff_right h]
  · next h => exact iff_of_false nofun fun h' => h h'.1

theorem lt_trans_of_lt (hxy : x < y) (hyz : y < z) : x < z := by
  rw [lt_iff] at *
  exact ⟨hxy.1, hyz.2.1, hxy.2.2.trans hyz.2.2⟩

theorem lt_of_not_le (hx : IsNumber x) (hy : IsNumber y) (h : ¬x ≤ y) : y < x := by
  rw [le_iff] at h
  exact lt_iff.2 ⟨hy, hx, lt_of_not_ge fun hle => h ⟨hx, hy, hle⟩⟩

/-! ## Finite doubles -/

theorem isFinite_iff : x.isFinite = true ↔ pattern x < infinityPattern := by
  have hfinite : x.isFinite = x.toModel.unpack.isFinite := rfl
  have hshape := shape x
  rw [hfinite]
  generalize x.toModel.unpack = u at hshape ⊢
  cases hshape with
  | notANumber h => exact iff_of_false nofun (by omega)
  | infinity h => exact iff_of_false nofun (by omega)
  | zero h => exact iff_of_true rfl (h ▸ by decide)
  | finite _ h => exact iff_of_true rfl h

/-! ## Results that are no NaN -/

/-- Packing makes a NaN of nothing else. -/
theorem isNumber_pack {u : Float.Model.UnpackedFloat} (h : u ≠ .notANumber) :
    IsNumber (.ofModel (.pack u)) := by
  have hbits : (Float.ofModel (.pack u)).toBits.toNat =
      (UnpackedFloat.pack Format.binary64 u).toNat := rfl
  rw [IsNumber, pattern, hbits]
  have hinfinity (s : Sign) :
      (packedInfinity Format.binary64 s).toNat % signBit ≤ infinityPattern := by
    cases s <;> decide
  cases u with
  | notANumber => exact absurd rfl h
  | infinity s => exact hinfinity s
  | zero s => cases s <;> decide
  | finite s m e hm =>
    rw [UnpackedFloat.pack]
    dsimp only
    split_ifs with hover hnormal
    · exact hinfinity s
    · rw [toNat_packComponents]
      simp only [BitVec.toNat_ofNat, infinityPattern, binade, signBit]
      rw [not_le] at hover
      omega
    · rw [toNat_packComponents]
      simp only [BitVec.toNat_ofNat, infinityPattern, binade, signBit]
      omega

theorem roundWithAccuracy_ne (s : Sign) (m : ℕ) (e : ℤ) (a : Accuracy) :
    roundWithAccuracy Format.binary64 s m e a ≠ .notANumber := by
  unfold roundWithAccuracy
  dsimp only
  split <;> nofun

theorem normalize_ne (m e : ℤ) (s : Sign) :
    UnpackedFloat.normalize Format.binary64 m e s ≠ .notANumber := by
  unfold UnpackedFloat.normalize UnpackedFloat.round
  split
  · exact roundWithAccuracy_ne _ _ _ _
  · nofun
  · exact roundWithAccuracy_ne _ _ _ _

theorem add_ne {u v : Float.Model.UnpackedFloat} (hu : u.isFinite = true)
    (hv : v ≠ .notANumber) : UnpackedFloat.add Format.binary64 u v ≠ .notANumber := by
  cases u with
  | notANumber => cases hu
  | infinity => cases hu
  | zero s =>
    cases v with
    | notANumber => exact absurd rfl hv
    | infinity => nofun
    | zero s' =>
      rw [UnpackedFloat.add]
      split <;> nofun
    | finite => nofun
  | finite s m e hm =>
    cases v with
    | notANumber => exact absurd rfl hv
    | infinity => nofun
    | zero => nofun
    | finite s' m' e' hm' => exact normalize_ne _ _ _

theorem mul_ne {u v : Float.Model.UnpackedFloat} (hu : u ≠ .notANumber)
    (hv : v.isFinite = true) (hzero : ∀ s, v ≠ .zero s) :
    UnpackedFloat.mul Format.binary64 u v ≠ .notANumber := by
  cases v with
  | notANumber => cases hv
  | infinity => cases hv
  | zero s => exact absurd rfl (hzero s)
  | finite s' m' e' hm' =>
    cases u with
    | notANumber => exact absurd rfl hu
    | infinity => nofun
    | zero => nofun
    | finite s m e hm => exact roundWithAccuracy_ne _ _ _ _

theorem ofScientific_ne (m : ℕ) (e : ℤ) :
    UnpackedFloat.ofScientific Format.binary64 m e ≠ .notANumber := by
  unfold UnpackedFloat.ofScientific
  split_ifs
  · nofun
  · nofun
  · nofun
  · exact mul_ne nofun rfl nofun
  · exact roundWithAccuracy_ne _ _ _ _

/-- What is added to a finite double does not make it a NaN. -/
theorem isNumber_add (hx : x.isFinite = true) (hy : IsNumber y) : IsNumber (x + y) :=
  isNumber_pack (add_ne hx (isNumber_iff.1 hy))

/-- A factor that is finite and not zero does not make a NaN. -/
theorem isNumber_mul (hx : IsNumber x) (hy : y.isFinite = true) (hpos : pattern y ≠ 0) :
    IsNumber (x * y) := by
  refine isNumber_pack (mul_ne (isNumber_iff.1 hx) hy fun s hzero => ?_)
  have hshape := shape y
  rw [hzero] at hshape
  cases hshape with
  | zero h => exact hpos h

theorem isNumber_ofNat (n : ℕ) : IsNumber (Float.ofNat n) := by
  show IsNumber (Float.ofScientific n false 0)
  unfold Float.ofScientific
  split
  · have hsize : 0 < Float.exactlyRepresentablePowersOfTen.size := by decide
    have hone : Float.exactlyRepresentablePowersOfTen[0] = 1.0 := rfl
    dsimp only
    rw [hone]
    exact isNumber_mul (isNumber_pack (normalize_ne _ _ _)) (by decide +kernel) (by decide +kernel)
  · exact isNumber_pack (ofScientific_ne n 0)

end EngineDuel.Number

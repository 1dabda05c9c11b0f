import EngineDuel.Proofs.Json.RoundTrip

/-!
# Numbers in JSON

Natural numbers and finite doubles are written as JSON writes numbers, and read back as they were
(`word_nat`, `float_float`). What is not finite is no number in JSON.

1. The text of a double is a whole part, digits behind a point, and an exponent (`IsDecimalText`).
   It denotes the shortest decimal of the double, or the same number with a zero behind the point
   (`whole_isDecimalText`, `fraction_isDecimalText`, `scientific_isDecimalText`).
2. A text of this form is read as the double nearest to what it denotes (`float?_decimalText`), and
   it does not matter how much of the power of ten stands behind the point
   (`Number.roundsTo_mul`).
-/

namespace EngineDuel

namespace Number

/-! ## Digits -/

/-- Only zero is written with a zero in front. -/
theorem head?_digitsOf {n : ℕ} (h : n ≠ 0) : (digitsOf n).head? ≠ some '0' := by
  unfold digitsOf
  induction n using Nat.strongRecOn with
  | ind n ih =>
    rcases Nat.lt_or_ge n 10 with hlt | hge
    · have hdigit : ∀ n < 10, n ≠ 0 → Nat.digitChar n ≠ '0' := by decide
      rw [Nat.toDigits_of_lt_base hlt, List.head?_cons]
      exact fun heq => hdigit n hlt h (Option.some.inj heq)
    · rw [Nat.toDigits_of_base_le (by decide) hge,
        List.head?_append_of_ne_nil _ Nat.toDigits_ne_nil]
      exact ih (n / 10) (by omega) (by omega)

/-- A ratio rounds as it does after both its parts have been multiplied. -/
theorem roundsTo_mul {b num den k : ℕ} (hk : 0 < k) :
    roundsTo b (k * num) (k * den) = roundsTo b num den := by
  have hvalue : 2 * (k * num * one) = k * (2 * (num * one)) := by
    rw [Nat.mul_assoc, Nat.mul_left_comm]
  rw [Bool.eq_iff_iff, roundsTo_iff, roundsTo_iff, hvalue, Nat.mul_left_comm (_ + _) k den,
    Nat.mul_left_comm (_ + _) k den]
  simp only [Nat.mul_lt_mul_left hk, Nat.mul_right_inj hk.ne']

/-- The shortest decimal of a double has no leading zeros, and no trailing ones if it is zero. -/
theorem shortest_digits (b : ℕ) : (shortest b).digits ≠ 0 ∨ shortest b = ⟨0, 0⟩ := by
  by_cases hb : b = 0
  · exact .inr (if_pos hb)
  · refine .inl fun hzero => ?_
    have hnum : (shortest b).num = 0 := by rw [Decimal.num, hzero, Nat.zero_mul]
    have hle := den_le_of_roundsTo hb (roundsTo_shortest hb)
    rw [hnum, Nat.zero_mul] at hle
    exact absurd (den_pos (shortest b)) (by omega)

end Number

namespace Json

open Token Number

theorem isDigits_digitsOf (n : ℕ) : IsDigits (digitsOf n) where
  ne_nil := Nat.toDigits_ne_nil
  isDigit _ := isDigit_of_mem_digitsOf

/-! ## Decimals -/

/-- A text without a sign that denotes a decimal. -/
structure IsDecimalText (s : List Char) (d : Decimal) : Prop where
  parts : ∃ whole fraction exponent e,
    s = whole ++ ((if fraction = [] then [] else '.' :: fraction) ++ exponent) ∧ IsWhole whole ∧
      (∀ c ∈ fraction, c.isDigit = true) ∧ IsExponent exponent ∧
      Numeral.readExponent? exponent = some e ∧
      d = ⟨ofDigits (whole ++ fraction), e - fraction.length⟩

theorem IsDecimalText.isNumberText {s : List Char} {d : Decimal} (h : IsDecimalText s d)
    (negative : Bool) : IsNumberText (minus negative ++ s) := by
  obtain ⟨whole, fraction, exponent, e, rfl, hwhole, hfraction, hexponent, -, -⟩ := h.parts
  refine ⟨negative, whole, _, exponent, rfl, hwhole, ?_, hexponent⟩
  split_ifs with hnone
  · exact .none
  · exact .digits ⟨hnone, hfraction⟩

theorem readExponent?_stops {exponent : List Char} (h : IsExponent exponent) :
    exponent.takeWhile Char.isDigit = [] ∧ exponent.dropWhile Char.isDigit = exponent := by
  cases h <;> exact ⟨rfl, rfl⟩

theorem read?_decimalText {whole fraction exponent : List Char} {e : ℤ} (hwhole : IsWhole whole)
    (hfraction : ∀ c ∈ fraction, c.isDigit = true) (hexponent : IsExponent exponent)
    (hread : Numeral.readExponent? exponent = some e) (negative : Bool) :
    Numeral.read? (minus negative ++
        (whole ++ ((if fraction = [] then [] else '.' :: fraction) ++ exponent))) =
      some ⟨negative, whole, fraction, e⟩ := by
  obtain ⟨c, ds, rfl⟩ := List.exists_cons_of_ne_nil hwhole.ne_nil
  obtain ⟨htake, hdrop⟩ := readExponent?_stops hexponent
  unfold Numeral.read?
  rw [List.cons_append, readSign_minus negative (hwhole.isDigit c List.mem_cons_self),
    ← List.cons_append]
  dsimp only
  rw [List.takeWhile_append_of_pos hwhole.isDigit, List.dropWhile_append_of_pos hwhole.isDigit]
  by_cases hnone : fraction = []
  · rw [hnone, if_pos rfl, List.nil_append, htake, hdrop, List.append_nil]
    cases hexponent <;> exact congrArg (Option.map _) hread
  · have hpoint : ('.' :: fraction ++ exponent).takeWhile Char.isDigit = [] ∧
        ('.' :: fraction ++ exponent).dropWhile Char.isDigit = '.' :: (fraction ++ exponent) :=
      ⟨rfl, rfl⟩
    rw [if_neg hnone, hpoint.1, hpoint.2]
    simp only [List.takeWhile_append_of_pos hfraction, List.dropWhile_append_of_pos hfraction,
      htake, hdrop, List.append_nil, hread]
    rfl

/-- **A text of this form is read** as the double nearest to what it denotes. -/
theorem float?_decimalText {s : List Char} {d : Decimal} (h : IsDecimalText s d)
    (negative : Bool) :
    float? (minus negative ++ s) = some (ofDecimal negative d.digits d.exponent) := by
  obtain ⟨whole, fraction, exponent, e, hs, hwhole, hfraction, hexponent, hread, rfl⟩ := h.parts
  obtain ⟨c, rest, hcons, hc⟩ : ∃ c rest, s = c :: rest ∧ c.isDigit = true := by
    obtain ⟨c, ds, rfl⟩ := List.exists_cons_of_ne_nil hwhole.ne_nil
    exact ⟨c, _, hs, hwhole.isDigit c List.mem_cons_self⟩
  rw [hcons, float?_minus negative hc, ← hcons, hs,
    read?_decimalText hwhole hfraction hexponent hread]
  rfl

/-! ## Texts of decimals -/

/-- Zeros after other digits. -/
theorem isWhole_append {n : ℕ} {zeros : List Char} (h : n ≠ 0 ∨ zeros = [])
    (hzeros : ∀ c ∈ zeros, c.isDigit = true) : IsWhole (digitsOf n ++ zeros) where
  ne_nil := List.append_ne_nil_of_left_ne_nil Nat.toDigits_ne_nil _
  isDigit := List.forall_mem_append.mpr ⟨fun _ => isDigit_of_mem_digitsOf, hzeros⟩
  first := by
    by_cases hn : n = 0
    · rw [h.resolve_left (not_not.mpr hn), hn]
      exact .inl rfl
    · refine .inr ?_
      rw [List.head?_append_of_ne_nil (digitsOf n) Nat.toDigits_ne_nil]
      exact head?_digitsOf hn

/-- The first digits. -/
theorem isWhole_take (n : ℕ) {k : ℕ} (hk : k ≠ 0) : IsWhole ((digitsOf n).take k) where
  ne_nil := by
    rw [Ne, List.take_eq_nil_iff, not_or]
    exact ⟨hk, Nat.toDigits_ne_nil⟩
  isDigit _ hc := isDigit_of_mem_digitsOf (List.mem_of_mem_take hc)
  first := by
    by_cases hn : n = 0
    · obtain ⟨k, rfl⟩ : ∃ m, k = m + 1 := ⟨k - 1, by omega⟩
      have hzero : digitsOf 0 = ['0'] := rfl
      rw [hn, hzero, List.take_succ_cons, List.take_nil]
      exact .inl rfl
    · rw [List.head?_take, if_neg hk]
      exact .inr (head?_digitsOf hn)

/-- A whole number ends in a point and a zero. -/
theorem whole_isDecimalText {d : Decimal} (hd : d.digits ≠ 0 ∨ d = ⟨0, 0⟩) (he : 0 ≤ d.exponent) :
    IsDecimalText (positionalText true d) ⟨10 * d.num, -1⟩ := by
  have hwhole : IsWhole (digitsOf d.digits ++ List.replicate d.exponent.toNat '0') := by
    refine isWhole_append (hd.imp_right ?_) fun c => isDigit_of_mem_replicate
    rintro rfl
    rfl
  have hvalue : ofDigits (digitsOf d.digits ++ List.replicate d.exponent.toNat '0' ++ ['0']) =
      10 * d.num := by
    have hzero : (['0'] : List Char) = List.replicate 1 '0' := rfl
    rw [hzero, ofDigits_append_zeros, ofDigits_append_zeros, ofDigits_digitsOf, Nat.mul_comm]
    rfl
  have hzero : ∀ c ∈ ['0'], c.isDigit = true := List.forall_mem_singleton.mpr isDigit_zero
  unfold positionalText
  rw [if_pos he, if_pos rfl]
  exact ⟨_, ['0'], [], 0, rfl, hwhole, hzero, .none, rfl, by rw [hvalue]; rfl⟩

/-- Digits on both sides of a point, or zeros and digits behind it. -/
theorem fraction_isDecimalText {d : Decimal} (he : d.exponent < 0) :
    IsDecimalText (positionalText true d) d := by
  obtain ⟨n, k, fraction, hk, htext, hfraction, hlength, hvalue⟩ := pointed_text he true
  have hne : fraction ≠ [] := by
    rw [← List.length_pos_iff, hlength]
    omega
  have hexponent : (0 : ℤ) - ((-d.exponent).toNat : ℤ) = d.exponent := by omega
  refine ⟨_, fraction, [], 0, by rw [htext, if_neg hne, List.append_nil], isWhole_take n hk,
    hfraction, .none, rfl, ?_⟩
  rw [hvalue, hlength, hexponent]

/-- The sign and the digits of an exponent. -/
theorem readExponent?_digits (e : ℤ) :
    ∃ sign, sign = (if e < 0 then ['-'] else ['+']) ∧
      IsExponent ('e' :: sign ++ digitsOf e.natAbs) ∧
      Numeral.readExponent? ('e' :: sign ++ digitsOf e.natAbs) = some e := by
  have hall : (digitsOf e.natAbs).all Char.isDigit = true :=
    List.all_eq_true.mpr fun c => isDigit_of_mem_digitsOf
  have hne : (digitsOf e.natAbs).isEmpty = false :=
    List.isEmpty_eq_false_iff.mpr Nat.toDigits_ne_nil
  refine ⟨_, rfl, .digits ?_ (isDigits_digitsOf _), ?_⟩
  · split_ifs <;> simp
  · unfold Numeral.readExponent?
    by_cases hneg : e < 0
    · rw [if_pos hneg]
      simp [Numeral.readSign, hall, hne, ofDigits_digitsOf, abs_of_neg hneg]
    · rw [if_neg hneg]
      simp [Numeral.readSign, hall, hne, ofDigits_digitsOf, abs_of_nonneg (Int.not_lt.mp hneg)]

/-- One digit, the others behind a point, and an exponent. -/
theorem scientific_isDecimalText (d : Decimal) : IsDecimalText (scientificText true d) d := by
  have hpos : 0 < (digitsOf d.digits).length := Nat.length_toDigits_pos
  obtain ⟨sign, hsign, hexponent, hread⟩ :=
    readExponent?_digits ((digitsOf d.digits).length + d.exponent - 1)
  unfold scientificText
  dsimp only
  rw [if_pos rfl, ← hsign]
  refine ⟨(digitsOf d.digits).take 1, (digitsOf d.digits).drop 1, _, _, ?_,
    isWhole_take _ Nat.one_ne_zero, ?_, hexponent, hread, ?_⟩
  · have hdrop : (digitsOf d.digits).drop 1 = [] ↔ (digitsOf d.digits).length = 1 := by
      rw [List.drop_eq_nil_iff]
      omega
    simp only [hdrop, List.append_assoc, List.cons_append]
  · exact fun c hc => isDigit_of_mem_digitsOf (List.mem_of_mem_drop hc)
  · have he : (digitsOf d.digits).length + d.exponent - 1 -
        (((digitsOf d.digits).length - 1 : ℕ) : ℤ) = d.exponent := by
      omega
    rw [List.take_append_drop, ofDigits_digitsOf, List.length_drop, he]

/-! ## Values -/

/-- **The text of a finite double in JSON**, without its sign: it denotes a decimal that rounds to
the double, or zero. -/
theorem exchanged_isDecimalText (b : ℕ) :
    ∃ d, IsDecimalText (Layout.exchanged.unsignedText (shortest b)) d ∧
      (b ≠ 0 → roundsTo b d.num d.den = true) ∧ (b = 0 → d.digits = 0) := by
  have hsame {s : List Char} (h : IsDecimalText s (shortest b)) : ∃ d, IsDecimalText s d ∧
      (b ≠ 0 → roundsTo b d.num d.den = true) ∧ (b = 0 → d.digits = 0) :=
    ⟨_, h, roundsTo_shortest, fun hb => by rw [hb]; rfl⟩
  have hpositional : ∃ d, IsDecimalText (positionalText true (shortest b)) d ∧
      (b ≠ 0 → roundsTo b d.num d.den = true) ∧ (b = 0 → d.digits = 0) := by
    rcases lt_or_ge (shortest b).exponent 0 with he | he
    · exact hsame (fraction_isDecimalText he)
    · refine ⟨_, whole_isDecimalText (shortest_digits b) he, fun hb => ?_,
        fun hb => by rw [hb]; rfl⟩
      have hden : (shortest b).den = 1 := by
        have hneg : (-(shortest b).exponent).toNat = 0 := by omega
        rw [Decimal.den, hneg]
      have hround := roundsTo_shortest hb
      rw [hden, ← roundsTo_mul (k := 10) (by decide)] at hround
      have hnum : (Decimal.mk (10 * (shortest b).num) (-1)).num = 10 * (shortest b).num :=
        Nat.mul_one _
      rwa [hnum]
  unfold Layout.unsignedText
  dsimp only [Layout.exchanged]
  split_ifs
  · exact hpositional
  · exact hsame (scientific_isDecimalText _)

theorem regular_nat (n : ℕ) : Regular (.nat n) := by
  have h := isWhole_append (n := n) (.inr rfl) (List.forall_mem_nil _)
  rw [List.append_nil] at h
  exact .number ⟨false, digitsOf n, [], [], (List.append_nil _).symm, h, .none, .none⟩

theorem chars_exchanged {x : Float} (h : isFinite x = true) :
    Layout.exchanged.chars x =
      minus (isNegative x) ++ Layout.exchanged.unsignedText (shortest (pattern x)) := by
  have hfinite : pattern x < infinityPattern := of_decide_eq_true h
  rw [Layout.chars, if_pos hfinite]
  rfl

theorem regular_float (x : Float) : Regular (.float x) := by
  unfold Json.float
  split_ifs with h
  · obtain ⟨d, hd, -⟩ := exchanged_isDecimalText (pattern x)
    rw [chars_exchanged h]
    exact .number (hd.isNumberText _)
  · exact .null

theorem natural?_digitsOf {n bound : ℕ} (h : n ≤ bound) : natural? bound (digitsOf n) = some n := by
  have hall : (digitsOf n).all Char.isDigit = true :=
    List.all_eq_true.mpr fun c => isDigit_of_mem_digitsOf
  obtain ⟨c, ds, hcons⟩ := List.exists_cons_of_ne_nil (Nat.toDigits_ne_nil (n := n) (b := 10))
  have hc : c ≠ '+' := by
    rintro rfl
    exact absurd (isDigit_of_mem_digitsOf (n := n) (hcons ▸ List.mem_cons_self)) (by decide)
  have hne : (digitsOf n).isEmpty = false := List.isEmpty_eq_false_iff.mpr Nat.toDigits_ne_nil
  unfold natural?
  split
  · next heq => exact absurd (List.cons.inj (hcons.symm.trans heq)).1 hc
  · dsimp only
    rw [hne, hall, ofDigits_digitsOf, decide_eq_true h]
    rfl

/-- **A natural number of 64 bits is read as it was written.** -/
theorem word_nat {n : ℕ} (h : n < UInt64.size) : Decoder.word (.nat n) = some (.ofNat n) := by
  have hall : (digitsOf n).all Char.isDigit = true :=
    List.all_eq_true.mpr fun c => isDigit_of_mem_digitsOf
  unfold Decoder.word Json.nat
  dsimp only
  rw [if_pos hall, natural?_digitsOf (Nat.le_sub_one_of_lt h)]
  rfl

/-- **A double is read as it was written**, if it is finite. -/
theorem float_float (x : Float) :
    Decoder.optional .float (.float x) = some (if isFinite x then some x else none) := by
  unfold Json.float
  split_ifs with h
  · obtain ⟨d, hd, hround, hzero⟩ := exchanged_isDecimalText (pattern x)
    have hfinite : pattern x < infinityPattern := of_decide_eq_true h
    have hvalue : ofDecimal (isNegative x) d.digits d.exponent = x := by
      refine Eq.trans ?_ (ofPattern_pattern x)
      by_cases hpattern : pattern x = 0
      · rw [hpattern, hzero hpattern]
        rfl
      · exact ofDecimal_eq _ hpattern hfinite (hround hpattern)
    have hread : Decoder.float (.number (Layout.exchanged.chars x)) = some x := by
      unfold Decoder.float
      dsimp only
      rw [chars_exchanged h, float?_decimalText hd, hvalue]
      exact if_pos h
    rw [Decoder.optional, hread]
    · rfl
    · exact nofun
  · rfl

end Json

end EngineDuel

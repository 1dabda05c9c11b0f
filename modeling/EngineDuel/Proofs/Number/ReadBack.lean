import EngineDuel.Number.Layout
import EngineDuel.Number.Numeral
import EngineDuel.Proofs.Number.Patterns
import EngineDuel.Proofs.Number.Rounding
import Mathlib.Data.List.TakeWhile

/-!
# Doubles read back

A finite double that is written without an exponent is a sign, digits and possibly a point with
further digits (`Positional`), and these denote the shortest decimal of the double
(`positional_text`). A text of this form is read as the double nearest to what it denotes
(`float?_positional`), which is the double that was written (`float?_plain`).
-/

namespace EngineDuel.Number

/-! ## Digits -/

theorem ofDigits_eq (ds : List Char) : ofDigits ds = Nat.ofDigitChars 10 ds 0 := by
  unfold ofDigits Nat.ofDigitChars
  congr 1
  funext n c
  rw [Nat.mul_comm]
  rfl

theorem ofDigits_digitsOf (n : ℕ) : ofDigits (digitsOf n) = n := by
  rw [ofDigits_eq, digitsOf, Nat.ofDigitChars_ten_toDigits]

theorem ofDigits_zeros_append (n : ℕ) (ds : List Char) :
    ofDigits (List.replicate n '0' ++ ds) = ofDigits ds := by
  rw [ofDigits_eq, ofDigits_eq, Nat.ofDigitChars_append, Nat.ofDigitChars_replicate_zero,
    Nat.mul_zero]

theorem ofDigits_append_zeros (ds : List Char) (n : ℕ) :
    ofDigits (ds ++ List.replicate n '0') = ofDigits ds * 10 ^ n := by
  rw [ofDigits_eq, ofDigits_eq, Nat.ofDigitChars_append, Nat.ofDigitChars_replicate_zero,
    Nat.mul_comm]

/-! ## Texts without exponents -/

/-- A text of digits, with further digits behind a point if there are any. -/
structure Positional (s whole fraction : List Char) : Prop where
  text_eq : s = whole ++ if fraction = [] then [] else '.' :: fraction
  whole_ne : whole ≠ []
  whole_digits : ∀ c ∈ whole, c.isDigit = true
  fraction_digits : ∀ c ∈ fraction, c.isDigit = true

theorem isDigit_zero : Char.isDigit '0' = true := rfl

theorem isDigit_of_mem_digitsOf {n : ℕ} {c : Char} (h : c ∈ digitsOf n) : c.isDigit = true :=
  Nat.isDigit_of_mem_toDigits (by decide) (by decide) h

theorem isDigit_of_mem_replicate {n : ℕ} {c : Char} (h : c ∈ List.replicate n '0') :
    c.isDigit = true := by
  rw [List.eq_of_mem_replicate h, isDigit_zero]

/-- A decimal that is not whole has digits on both sides of its point. In front of it there are the
first digits of a number. -/
theorem pointed_text {d : Decimal} (he : d.exponent < 0) (pointAlways : Bool) :
    ∃ n k fraction, k ≠ 0 ∧
      positionalText pointAlways d = (digitsOf n).take k ++ '.' :: fraction ∧
      (∀ c ∈ fraction, c.isDigit = true) ∧ fraction.length = (-d.exponent).toNat ∧
      ofDigits ((digitsOf n).take k ++ fraction) = d.digits := by
  unfold positionalText
  rw [if_neg (by omega)]
  by_cases hpoint : 0 < (digitsOf d.digits).length + d.exponent
  · rw [if_pos hpoint]
    generalize hk : ((digitsOf d.digits).length + d.exponent).toNat = k
    refine ⟨d.digits, k, (digitsOf d.digits).drop k, by omega, rfl, ?_, ?_, ?_⟩
    · exact fun c hc => isDigit_of_mem_digitsOf (List.mem_of_mem_drop hc)
    · rw [List.length_drop]
      omega
    · rw [List.take_append_drop, ofDigits_digitsOf]
  · rw [if_neg hpoint]
    generalize hn : (-((digitsOf d.digits).length + d.exponent)).toNat = n
    have hzero : (digitsOf 0).take 1 = ['0'] := rfl
    refine ⟨0, 1, List.replicate n '0' ++ digitsOf d.digits, Nat.one_ne_zero, rfl, ?_, ?_, ?_⟩
    · exact List.forall_mem_append.mpr
        ⟨fun c => isDigit_of_mem_replicate, fun c => isDigit_of_mem_digitsOf⟩
    · rw [List.length_append, List.length_replicate]
      omega
    · rw [hzero, List.singleton_append, ← List.cons_append, ← List.replicate_succ,
        ofDigits_zeros_append, ofDigits_digitsOf]

/-- A decimal is written as digits that denote it. -/
theorem positional_text (d : Decimal) :
    ∃ whole fraction, Positional (positionalText false d) whole fraction ∧
      ofDigits (whole ++ fraction) = d.num ∧ 10 ^ fraction.length = d.den := by
  by_cases he : 0 ≤ d.exponent
  · have hneg : (-d.exponent).toNat = 0 := by omega
    unfold positionalText
    rw [if_pos he]
    refine ⟨digitsOf d.digits ++ List.replicate d.exponent.toNat '0', [], ⟨rfl, ?_, ?_, nofun⟩,
      ?_, ?_⟩
    · exact List.append_ne_nil_of_left_ne_nil Nat.toDigits_ne_nil _
    · exact List.forall_mem_append.mpr
        ⟨fun c => isDigit_of_mem_digitsOf, fun c => isDigit_of_mem_replicate⟩
    · rw [List.append_nil, ofDigits_append_zeros, ofDigits_digitsOf]
      rfl
    · rw [Decimal.den, hneg]
      rfl
  · obtain ⟨n, k, fraction, hk, htext, hfraction, hlength, hvalue⟩ :=
      @pointed_text d (by omega) false
    have hnum : d.num = d.digits := by
      have hzero : d.exponent.toNat = 0 := by omega
      rw [Decimal.num, hzero]
      exact Nat.mul_one _
    have hne : fraction ≠ [] := by
      rw [← List.length_pos_iff, hlength]
      omega
    refine ⟨_, fraction, ⟨by rw [htext, if_neg hne], ?_, ?_, hfraction⟩, hvalue.trans hnum.symm, ?_⟩
    · rw [Ne, List.take_eq_nil_iff, not_or]
      exact ⟨hk, Nat.toDigits_ne_nil⟩
    · exact fun c hc => isDigit_of_mem_digitsOf (List.mem_of_mem_take hc)
    · rw [hlength]
      rfl

/-! ## Reading -/

/-- A minus sign, or nothing. -/
def minus (negative : Bool) : List Char := if negative then ['-'] else []

variable {s whole fraction : List Char}

/-- What stands behind the digits is no digit. -/
theorem Positional.span (h : Positional s whole fraction) :
    s.takeWhile Char.isDigit = whole ∧
      s.dropWhile Char.isDigit = if fraction = [] then [] else '.' :: fraction := by
  have hstop : ∀ p : List Char, p = (if fraction = [] then [] else '.' :: fraction) →
      p.takeWhile Char.isDigit = [] ∧ p.dropWhile Char.isDigit = p := by
    rintro p rfl
    split_ifs <;> exact ⟨rfl, rfl⟩
  obtain ⟨htake, hdrop⟩ := hstop _ rfl
  rw [h.text_eq, List.takeWhile_append_of_pos h.whole_digits,
    List.dropWhile_append_of_pos h.whole_digits, htake, hdrop, List.append_nil]
  exact ⟨rfl, rfl⟩

theorem Positional.head (h : Positional s whole fraction) :
    ∃ c rest, s = c :: rest ∧ c.isDigit = true := by
  obtain ⟨c, rest, rfl⟩ := List.exists_cons_of_ne_nil h.whole_ne
  exact ⟨c, _, h.text_eq, h.whole_digits c (List.mem_cons_self ..)⟩

theorem readSign_minus_of_ne (negative : Bool) {c : Char} (hminus : c ≠ '-') (hplus : c ≠ '+')
    (rest : List Char) : Numeral.readSign (minus negative ++ c :: rest) = (negative, c :: rest) := by
  cases negative with
  | true => rfl
  | false =>
    show Numeral.readSign (c :: rest) = _
    unfold Numeral.readSign
    split
    · next heq => exact absurd (List.cons.inj heq).1 hminus
    · next heq => exact absurd (List.cons.inj heq).1 hplus
    · rfl

theorem readSign_minus (negative : Bool) {c : Char} (hc : c.isDigit = true) (rest : List Char) :
    Numeral.readSign (minus negative ++ c :: rest) = (negative, c :: rest) :=
  readSign_minus_of_ne negative (by rintro rfl; cases hc) (by rintro rfl; cases hc) rest

theorem readSign_positional (negative : Bool) (h : Positional s whole fraction) :
    Numeral.readSign (minus negative ++ s) = (negative, s) := by
  obtain ⟨c, rest, rfl, hc⟩ := h.head
  exact readSign_minus negative hc rest

theorem read?_positional (negative : Bool) (h : Positional s whole fraction) :
    Numeral.read? (minus negative ++ s) = some ⟨negative, whole, fraction, 0⟩ := by
  obtain ⟨htake, hdrop⟩ := h.span
  have hwhole : whole.isEmpty = false := List.isEmpty_eq_false_iff.2 h.whole_ne
  unfold Numeral.read?
  rw [readSign_positional negative h]
  dsimp only
  rw [htake, hdrop]
  by_cases hnone : fraction = []
  · rw [if_pos hnone, hnone, hwhole]
    rfl
  · have htake' : fraction.takeWhile Char.isDigit = fraction :=
      List.takeWhile_eq_self_iff.2 h.fraction_digits
    have hdrop' : fraction.dropWhile Char.isDigit = [] :=
      List.dropWhile_eq_nil_iff.2 h.fraction_digits
    simp only [if_neg hnone, htake', hdrop', hwhole]
    rfl

theorem toLower_of_isDigit {c : Char} (h : c.isDigit = true) : c.toLower = c := by
  rw [Char.isDigit, Bool.and_eq_true, decide_eq_true_iff, decide_eq_true_iff] at h
  refine dif_neg fun hupper => ?_
  have hle : (65 : UInt32) ≤ 57 := UInt32.le_trans hupper.1 h.2
  exact absurd hle (by decide)

/-- What starts with none of the letters `i` and `n` is not the name of a double. -/
theorem float?_minus_of_ne (negative : Bool) {c : Char} (hminus : c ≠ '-') (hplus : c ≠ '+')
    (hi : c.toLower ≠ 'i') (hn : c.toLower ≠ 'n') (rest : List Char) :
    float? (minus negative ++ c :: rest) =
      (Numeral.read? (minus negative ++ c :: rest)).map Numeral.toFloat := by
  have hname {letter : Char} (hletter : c.toLower ≠ letter) (name : List Char) :
      (c :: rest).map Char.toLower ≠ letter :: name := fun heq => hletter (List.cons.inj heq).1
  unfold float?
  rw [readSign_minus_of_ne negative hminus hplus]
  dsimp only
  have h₁ : (c :: rest).map Char.toLower ≠ ['i', 'n', 'f'] := hname hi _
  have h₂ : (c :: rest).map Char.toLower ≠ ['i', 'n', 'f', 'i', 'n', 'i', 't', 'y'] := hname hi _
  have h₃ : (c :: rest).map Char.toLower ≠ ['n', 'a', 'n'] := hname hn _
  rw [decide_eq_false h₁, decide_eq_false h₂, if_neg (by decide), if_neg h₃]

theorem float?_minus (negative : Bool) {c : Char} (hc : c.isDigit = true) (rest : List Char) :
    float? (minus negative ++ c :: rest) =
      (Numeral.read? (minus negative ++ c :: rest)).map Numeral.toFloat := by
  have hne {d : Char} (hd : d.isDigit = false) : c ≠ d := by
    rintro rfl
    exact Bool.false_ne_true (hd.symm.trans hc)
  refine float?_minus_of_ne negative (hne rfl) (hne rfl) ?_ ?_ rest <;>
    · rw [toLower_of_isDigit hc]
      exact hne rfl

/-- A text without an exponent is read as the double nearest to what it denotes. -/
theorem float?_positional (negative : Bool) (h : Positional s whole fraction) :
    float? (minus negative ++ s) =
      some (ofDecimal negative (ofDigits (whole ++ fraction)) (-fraction.length)) := by
  have hread := read?_positional negative h
  obtain ⟨c, rest, rfl, hc⟩ := h.head
  rw [float?_minus negative hc, hread]
  show some (ofDecimal _ _ (0 - _)) = _
  rw [Int.zero_sub]

/-! ## Doubles -/

variable {x : Float}

/-- A finite double is written without an exponent. -/
theorem plain_toList (h : isFinite x = true) :
    (plain x).toList = minus (isNegative x) ++ positionalText false (shortest (pattern x)) := by
  have hfinite : pattern x < infinityPattern := of_decide_eq_true h
  rw [plain, Layout.text, String.toList_ofList, Layout.chars, if_pos hfinite]
  rfl

/-- **A finite double is read back as it was written.** -/
theorem float?_plain (h : isFinite x = true) : float? (plain x).toList = some x := by
  obtain ⟨whole, fraction, htext, hnum, hden⟩ := positional_text (shortest (pattern x))
  rw [plain_toList h, float?_positional _ htext, hnum, Option.some.injEq]
  refine Eq.trans ?_ (ofPattern_pattern x)
  by_cases hzero : pattern x = 0
  · have hshortest : (shortest 0).num = 0 := rfl
    rw [hzero, hshortest]
    rfl
  · refine ofDecimal_eq _ hzero (of_decide_eq_true h) ?_
    have hpositive : (-(fraction.length : ℤ)).toNat = 0 := by omega
    have hnegative : (- -(fraction.length : ℤ)).toNat = fraction.length := by omega
    have hnum' : (shortest (pattern x)).num * Nat.pow 10 0 = (shortest (pattern x)).num :=
      Nat.mul_one _
    have hden' : Nat.pow 10 fraction.length = (shortest (pattern x)).den := hden
    rw [hpositive, hnegative, hnum', hden']
    exact roundsTo_shortest hzero

/-- An infinity is read back by its name. -/
theorem float?_plain_infinity (h : pattern x = infinityPattern) :
    float? (plain x).toList = some x := by
  have hname : (plain x).toList = minus (isNegative x) ++ ['i', 'n', 'f'] := by
    rw [plain, Layout.text, String.toList_ofList, Layout.chars, h, if_neg (Nat.lt_irrefl _),
      if_pos rfl]
    rfl
  have hread (negative : Bool) : float? (minus negative ++ ['i', 'n', 'f']) =
      some (ofPattern negative infinityPattern) := by
    cases negative <;> rfl
  rw [hname, hread, ← h, ofPattern_pattern]

/-- **Doubles that are written alike are the same**, unless one of them is no number. -/
theorem plain_injective {y : Float} (hx : pattern x ≤ infinityPattern)
    (hy : pattern y ≤ infinityPattern) (h : plain x = plain y) : x = y := by
  have hread {z : Float} (hz : pattern z ≤ infinityPattern) :
      float? (plain z).toList = some z := by
    rcases Nat.lt_or_eq_of_le hz with hlt | heq
    · exact float?_plain (decide_eq_true hlt)
    · exact float?_plain_infinity heq
  have hsame := hread hx
  rw [h, hread hy] at hsame
  exact (Option.some.inj hsame).symm

end EngineDuel.Number

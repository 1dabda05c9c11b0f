import EngineDuel.Proofs.Report.FinalLine

/-!
# The grammar of final lines

Which lines a reader of final lines accepts, and as what, told without its scanner: the first mark
counts, behind it the last place at which the ratings stand, and there the longest second number
(`FinalTexts`). Digits of any script make up a number, but only ASCII digits denote one (`Denotes`).

1. A number that is scanned is a longest one (`spanNumber?_longest`). In front of a comma there is only
   one (`spanNumber?_comma`).
2. So the scan for the ratings at one place (`ratingsAt?_eq_some_iff`), for the last place of a line
   (`lastRatings?_eq_some_iff`) and for the first mark (`ratingTexts?_eq_some_iff`) each find what the
   grammar names. A second mark brings no place that is not behind the first already.
3. The two texts are read as what they denote if all their digits are ASCII, and else not at all
   (`float?_eq_some_iff`).
-/

namespace EngineDuel.Report

open Number

/-! ## The grammar -/

/-- A text of digits of any script, with further digits behind a point if there are any. -/
structure DigitText (s whole fraction : List Char) : Prop where
  text_eq : s = whole ++ if fraction = [] then [] else '.' :: fraction
  whole_ne : whole ≠ []
  whole_digits : ∀ c ∈ whole, Text.isDigit c = true
  fraction_digits : ∀ c ∈ fraction, Text.isDigit c = true

/-- A number: such a text, behind a minus sign or not. -/
def IsNumber (s : List Char) : Prop :=
  ∃ negative whole fraction digits, DigitText digits whole fraction ∧ s = minus negative ++ digits

/-- The ratings `a` and `b` stand at the start of a text. -/
inductive RatingsStand : List Char → List Char → List Char → Prop
  | mk {a b blanks rest : List Char} : IsNumber a → (∀ c ∈ blanks, Text.isBlank c = true) →
      IsNumber b → RatingsStand (aMark ++ (a ++ ([','] ++ (blanks ++ (bMark ++ (b ++ rest)))))) a b

/-- They stand behind `front` in a text, and not right after a word character. The character
`before` is the one in front of the text. -/
def StandBehind (before : Char) (front s a b : List Char) : Prop :=
  ∃ t, s = front ++ t ∧ Text.isWord (front.getLastD before) = false ∧ RatingsStand t a b

/-- They stand nowhere further behind, and the second is as long as possible. -/
structure StandLast (before : Char) (front s a b : List Char) : Prop where
  stand : StandBehind before front s a b
  last : ∀ front' a' b', StandBehind before front' s a' b' → front'.length ≤ front.length
  longest : ∀ b', StandBehind before front s a b' → b'.length ≤ b.length

/-- `tail` is what follows the first mark of a line. -/
def FirstMark (line tail : List Char) : Prop :=
  ∃ before, line = before ++ (finalMark ++ tail) ∧
    ∀ before' tail', line = before' ++ (finalMark ++ tail') → before.length ≤ before'.length

/-- The texts of the ratings in a final line. -/
def FinalTexts (line a b : List Char) : Prop :=
  ∃ tail front, FirstMark line tail ∧ StandLast ':' front tail a b

/-- A number of ASCII digits, and the double nearest to it. -/
def Denotes (s : List Char) (x : Float) : Prop :=
  ∃ negative whole fraction digits, Positional digits whole fraction ∧ s = minus negative ++ digits ∧
    x = ofDecimal negative (ofDigits (whole ++ fraction)) (-fraction.length)

/-! ## Digits -/

section Digits

variable {s t whole fraction rest : List Char}

theorem not_mem_digits {c : Char} (h : Text.isDigit c = false) {ds : List Char}
    (hds : ∀ d ∈ ds, Text.isDigit d = true) : c ∉ ds :=
  fun hc => Bool.false_ne_true (h.symm.trans (hds c hc))

theorem isDigit_point : Text.isDigit '.' = false := by decide +kernel

/-- A digit is an ASCII digit or far behind the ASCII characters. -/
theorem isDigit_or_of_isDigit {c : Char} (h : Text.isDigit c = true) :
    c.isDigit = true ∨ 0x660 ≤ c.toNat := by
  have hranges : ∀ r ∈ Text.digitRanges.toList, r = (0x30, 0x39) ∨ 0x660 ≤ r.1 := by decide +kernel
  rw [Text.isDigit, covers_eq, List.any_eq_true] at h
  obtain ⟨r, hr, hin⟩ := h
  rw [Bool.and_eq_true, decide_eq_true_iff, decide_eq_true_iff] at hin
  rcases hranges r hr with rfl | hfar
  · refine .inl ?_
    rw [Char.isDigit, Bool.and_eq_true, decide_eq_true_iff, decide_eq_true_iff]
    exact ⟨UInt32.le_iff_toNat_le.2 hin.1, UInt32.le_iff_toNat_le.2 hin.2⟩
  · exact .inr (hfar.trans hin.1)

theorem isEmpty_append_of_ne (h : s ≠ []) (t : List Char) : (s ++ t).isEmpty = false :=
  List.isEmpty_eq_false_iff.2 (List.append_ne_nil_of_left_ne_nil h t)

/-! ## Scanning a number -/

theorem spanUnsigned?_sound (h : spanUnsigned? s = some (t, rest)) :
    s = t ++ rest ∧ ∃ whole fraction, DigitText t whole fraction := by
  have hdigits (u : List Char) : ∀ c ∈ u.takeWhile Text.isDigit, Text.isDigit c = true :=
    fun _ => List.mem_takeWhile_imp
  have hsplit := List.takeWhile_append_dropWhile (p := Text.isDigit) (l := s)
  unfold spanUnsigned? spanDigits at h
  dsimp only at h
  split_ifs at h with hwhole
  have hne : s.takeWhile Text.isDigit ≠ [] := fun heq => hwhole (List.isEmpty_iff.2 heq)
  have hplain : DigitText (s.takeWhile Text.isDigit) (s.takeWhile Text.isDigit) [] :=
    ⟨by rw [if_pos rfl, List.append_nil], hne, hdigits s, nofun⟩
  split at h
  · next more hmore =>
    split_ifs at h with hfraction
    · obtain ⟨rfl, rfl⟩ := Prod.mk.inj (Option.some.inj h)
      exact ⟨hsplit.symm, _, _, hplain⟩
    · obtain ⟨rfl, rfl⟩ := Prod.mk.inj (Option.some.inj h)
      refine ⟨?_, _, more.takeWhile Text.isDigit, ?_, hne, hdigits s, hdigits more⟩
      · rw [List.append_assoc, List.cons_append, List.takeWhile_append_dropWhile, ← hmore, hsplit]
      · rw [if_neg fun heq => hfraction (List.isEmpty_iff.2 heq)]
  · obtain ⟨rfl, rfl⟩ := Prod.mk.inj (Option.some.inj h)
    exact ⟨hsplit.symm, _, _, hplain⟩

theorem spanUnsigned?_longest (h : DigitText t whole fraction) (rest : List Char) :
    ∃ t' rest', spanUnsigned? (t ++ rest) = some (t', rest') ∧ t.length ≤ t'.length := by
  have hwhole : whole.isEmpty = false := List.isEmpty_eq_false_iff.2 h.whole_ne
  unfold spanUnsigned? spanDigits
  by_cases hnone : fraction = []
  · obtain rfl : t = whole := by rw [h.text_eq, if_pos hnone, List.append_nil]
    have hmore : t.length ≤ (t ++ rest.takeWhile Text.isDigit).length :=
      (List.prefix_append _ _).length_le
    simp only [List.takeWhile_append_of_pos h.whole_digits, isEmpty_append_of_ne h.whole_ne,
      Bool.false_eq_true, if_false]
    split
    · split_ifs
      · exact ⟨_, _, rfl, hmore⟩
      · refine ⟨_, _, rfl, hmore.trans ?_⟩
        exact (List.prefix_append _ _).length_le
    · exact ⟨_, _, rfl, hmore⟩
  · have htext : t ++ rest = whole ++ '.' :: (fraction ++ rest) := by
      rw [h.text_eq, if_neg hnone, List.append_assoc, List.cons_append]
    have htake : (t ++ rest).takeWhile Text.isDigit = whole := by
      rw [htext, List.takeWhile_append_of_pos h.whole_digits,
        List.takeWhile_cons_of_neg (by rw [isDigit_point]; nofun), List.append_nil]
    have hdrop : (t ++ rest).dropWhile Text.isDigit = '.' :: (fraction ++ rest) := by
      rw [htext, List.dropWhile_append_of_pos h.whole_digits,
        List.dropWhile_cons_of_neg (by rw [isDigit_point]; nofun)]
    simp only [htake, hdrop, hwhole, List.takeWhile_append_of_pos h.fraction_digits,
      isEmpty_append_of_ne hnone, Bool.false_eq_true, if_false]
    refine ⟨_, _, rfl, ?_⟩
    rw [h.text_eq, if_neg hnone, ← List.cons_append, ← List.append_assoc]
    exact (List.prefix_append _ _).length_le

theorem DigitText.head?_ne (h : DigitText t whole fraction) : t.head? ≠ some '-' := by
  obtain ⟨c, more, rfl⟩ := List.exists_cons_of_ne_nil h.whole_ne
  rw [h.text_eq, List.cons_append, List.head?_cons]
  rintro ⟨⟩
  have hminus : Text.isDigit '-' = false := by decide +kernel
  exact not_mem_digits hminus h.whole_digits (List.mem_cons_self ..)

/-- A text, parted from its sign. -/
theorem exists_sign (s : List Char) :
    ∃ negative t, s = minus negative ++ t ∧ (negative = false → t.head? ≠ some '-') := by
  rcases s with _ | ⟨c, t⟩
  · exact ⟨false, [], rfl, fun _ => nofun⟩
  · by_cases hc : c = '-'
    · exact ⟨true, t, by rw [hc]; rfl, nofun⟩
    · exact ⟨false, c :: t, rfl, fun _ heq => hc (Option.some.inj heq)⟩

theorem spanNumber?_sound (h : spanNumber? s = some (t, rest)) : s = t ++ rest ∧ IsNumber t := by
  obtain ⟨negative, u, rfl, hu⟩ := exists_sign s
  rw [spanNumber?_sign negative hu, Option.map_eq_some_iff] at h
  obtain ⟨⟨digits, rest'⟩, hspan, hfound⟩ := h
  obtain ⟨rfl, rfl⟩ := Prod.mk.inj hfound
  obtain ⟨rfl, whole, fraction, hdigits⟩ := spanUnsigned?_sound hspan
  exact ⟨(List.append_assoc ..).symm, negative, whole, fraction, digits, hdigits, rfl⟩

/-- A number that is scanned is as long as any. -/
theorem spanNumber?_longest (h : IsNumber t) (rest : List Char) :
    ∃ t' rest', spanNumber? (t ++ rest) = some (t', rest') ∧ t.length ≤ t'.length := by
  obtain ⟨negative, whole, fraction, digits, hdigits, rfl⟩ := h
  obtain ⟨t', rest', hspan, hle⟩ := spanUnsigned?_longest hdigits rest
  have hhead : (digits ++ rest).head? ≠ some '-' := by
    obtain ⟨c, more, heq⟩ := List.exists_cons_of_ne_nil
      (fun hnil : digits = [] => hdigits.whole_ne (List.append_eq_nil_iff.1 (hdigits.text_eq ▸ hnil)).1)
    have hne := hdigits.head?_ne
    rw [heq] at hne ⊢
    exact hne
  refine ⟨minus negative ++ t', rest', ?_, ?_⟩
  · rw [List.append_assoc, spanNumber?_sign negative fun _ => hhead, hspan]
    rfl
  · rw [List.length_append, List.length_append]
    exact Nat.add_le_add_left hle _

theorem IsNumber.comma_not_mem (h : IsNumber t) : ',' ∉ t := by
  obtain ⟨negative, whole, fraction, digits, hdigits, rfl⟩ := h
  have hcomma : Text.isDigit ',' = false := by decide +kernel
  have hwhole := not_mem_digits hcomma hdigits.whole_digits
  have hfraction := not_mem_digits hcomma hdigits.fraction_digits
  have hpoint : ',' ∉ if fraction = [] then [] else '.' :: fraction := by
    split_ifs
    · exact List.not_mem_nil
    · exact fun hmem => (List.mem_cons.1 hmem).elim (by decide) hfraction
  have hminus : ',' ∉ minus negative := by cases negative <;> decide
  rw [hdigits.text_eq, List.mem_append, List.mem_append, not_or, not_or]
  exact ⟨hminus, hwhole, hpoint⟩

/-- A number in front of a comma is taken as a whole. -/
theorem spanNumber?_comma (h : IsNumber t) (rest : List Char) :
    spanNumber? (t ++ ([','] ++ rest)) = some (t, [','] ++ rest) := by
  obtain ⟨t', rest', hspan, hle⟩ := spanNumber?_longest h ([','] ++ rest)
  obtain ⟨heq, hnumber⟩ := spanNumber?_sound hspan
  obtain ⟨more, rfl⟩ : t <+: t' :=
    List.prefix_of_prefix_length_le ⟨_, rfl⟩ ⟨rest', heq.symm⟩ hle
  rw [List.append_assoc, List.append_cancel_left_eq] at heq
  rcases more with _ | ⟨c, more⟩
  · rw [hspan, List.append_nil, heq]
    rfl
  · obtain rfl : ',' = c := (List.cons.inj heq).1
    exact absurd (List.mem_append_right _ (List.mem_cons_self ..)) hnumber.comma_not_mem

end Digits

/-! ## The ratings at one place -/

section Places

variable {before : Char} {s a b a' b' front front' : List Char}

theorem dropPrefix?_eq_some_iff {t s rest : List Char} :
    Text.dropPrefix? t s = some rest ↔ s = t ++ rest := by
  refine ⟨fun h => ?_, fun h => h ▸ dropPrefix?_append t rest⟩
  unfold Text.dropPrefix? at h
  split_ifs at h with hprefix
  obtain ⟨more, rfl⟩ := List.isPrefixOf_iff_prefix.1 hprefix
  rw [List.drop_left] at h
  rw [Option.some.inj h]

theorem trimStart_blanks_append {blanks : List Char} (h : ∀ c ∈ blanks, Text.isBlank c = true)
    (rest : List Char) : Text.trimStart (blanks ++ (bMark ++ rest)) = bMark ++ rest := by
  rw [Text.trimStart, List.dropWhile_append_of_pos h]
  rfl

theorem ratingsAt?_sound (h : ratingsAt? s = some (a, b)) : RatingsStand s a b := by
  unfold ratingsAt? at h
  simp only [Option.bind_eq_bind, Option.bind_eq_some_iff] at h
  obtain ⟨s₁, hmark, ⟨a₁, s₂⟩, hspan, s₃, hcomma, s₄, hother, ⟨b₁, rest⟩, hspan', hfound⟩ := h
  obtain ⟨rfl, rfl⟩ := Prod.mk.inj (Option.some.inj hfound)
  obtain ⟨rfl, ha⟩ := spanNumber?_sound hspan
  obtain ⟨rfl, hb⟩ := spanNumber?_sound hspan'
  rw [dropPrefix?_eq_some_iff] at hmark hcomma hother
  dsimp only at hcomma
  have hblanks := List.takeWhile_append_dropWhile (p := Text.isBlank) (l := s₃)
  rw [Text.trimStart] at hother
  subst hmark hcomma
  rw [← hblanks, hother]
  exact .mk ha (fun _ => List.mem_takeWhile_imp) hb

/-- Ratings that stand at the start of a text are found there, or longer ones. -/
theorem RatingsStand.found (h : RatingsStand s a b) :
    ∃ b', ratingsAt? s = some (a, b') ∧ b.length ≤ b'.length := by
  obtain @⟨_, _, blanks, rest, ha, hblanks, hb⟩ := h
  obtain ⟨b', rest', hspan, hle⟩ := spanNumber?_longest hb rest
  refine ⟨b', ?_, hle⟩
  unfold ratingsAt?
  simp only [dropPrefix?_append, spanNumber?_comma ha, trimStart_blanks_append hblanks, hspan,
    Option.bind_eq_bind, Option.bind_some]
  rfl

theorem RatingsStand.first_unique (h : RatingsStand s a b) (h' : RatingsStand s a' b') : a' = a := by
  obtain ⟨_, hfound, -⟩ := h.found
  obtain ⟨_, hfound', -⟩ := h'.found
  rw [hfound] at hfound'
  exact (Prod.mk.inj (Option.some.inj hfound')).1.symm

/-- Two texts from the same place on, of the same length, are the same. -/
theorem RatingsStand.second_unique (h : RatingsStand s a b) (h' : RatingsStand s a b')
    (hlength : b'.length = b.length) : b' = b := by
  obtain @⟨_, _, blanks, rest, ha, hblanks, hb⟩ := h
  generalize htext : aMark ++ (a ++ ([','] ++ (blanks ++ (bMark ++ (b ++ rest))))) = s at h'
  obtain @⟨_, _, blanks', rest', -, hblanks', hb'⟩ := h'
  rw [List.append_cancel_left_eq, List.append_cancel_left_eq, List.append_cancel_left_eq] at htext
  have htrim := congrArg Text.trimStart htext
  rw [trimStart_blanks_append hblanks, trimStart_blanks_append hblanks',
    List.append_cancel_left_eq] at htrim
  exact (List.append_inj_left htrim hlength.symm).symm

theorem ratingsAt?_eq_some_iff : ratingsAt? s = some (a, b) ↔
    RatingsStand s a b ∧ ∀ b', RatingsStand s a b' → b'.length ≤ b.length := by
  constructor
  · intro h
    refine ⟨ratingsAt?_sound h, fun b' h' => ?_⟩
    obtain ⟨c, hfound, hle⟩ := h'.found
    rw [h] at hfound
    rwa [(Prod.mk.inj (Option.some.inj hfound)).2]
  · rintro ⟨h, hlongest⟩
    obtain ⟨c, hfound, hle⟩ := h.found
    have hc := ratingsAt?_sound hfound
    rw [hfound, h.second_unique hc (Nat.le_antisymm (hlongest c hc) hle)]

/-! ## The last place -/

theorem standBehind_nil : StandBehind before [] s a b ↔
    Text.isWord before = false ∧ RatingsStand s a b := by
  refine ⟨?_, fun h => ⟨s, rfl, h⟩⟩
  rintro ⟨_, rfl, h⟩
  exact h

theorem standBehind_cons {c d : Char} : StandBehind before (d :: front) (c :: s) a b ↔
    d = c ∧ StandBehind c front s a b := by
  constructor
  · rintro ⟨t, htext, hword, h⟩
    obtain ⟨rfl, rfl⟩ := List.cons.inj htext
    rw [List.getLastD_cons] at hword
    exact ⟨rfl, t, rfl, hword, h⟩
  · rintro ⟨rfl, t, rfl, hword, h⟩
    exact ⟨t, rfl, by rwa [List.getLastD_cons], h⟩

theorem not_standBehind_nil : ¬ StandBehind before front [] a b := by
  rintro ⟨t, htext, -, h⟩
  obtain rfl := (List.append_eq_nil_iff.1 htext.symm).2
  obtain ⟨c, hfound, -⟩ := h.found
  cases hfound

/-- A line with a place for the ratings has a last one that is found. -/
theorem StandBehind.found (hs : '\n' ∉ s) (h : StandBehind before front s a b) :
    ∃ p, lastRatings? before s = some p := by
  induction s generalizing before front with
  | nil => exact absurd h not_standBehind_nil
  | cons c rest ih =>
    have hc : c ≠ '\n' := fun heq => hs (heq ▸ List.mem_cons_self ..)
    rw [lastRatings?, if_neg hc]
    rcases front with _ | ⟨d, front⟩
    · obtain ⟨hword, hstand⟩ := standBehind_nil.1 h
      obtain ⟨b', hfound, -⟩ := hstand.found
      rw [hword, hfound, if_neg Bool.false_ne_true]
      exact ⟨_, Option.or_some⟩
    · obtain ⟨p, hp⟩ := ih (fun hmem => hs (List.mem_cons_of_mem _ hmem)) (standBehind_cons.1 h).2
      exact ⟨p, by rw [hp, Option.some_or]⟩

theorem lastRatings?_sound (hs : '\n' ∉ s) (h : lastRatings? before s = some (a, b)) :
    ∃ front, StandLast before front s a b := by
  induction s generalizing before with
  | nil => cases h
  | cons c rest ih =>
    have hc : c ≠ '\n' := fun heq => hs (heq ▸ List.mem_cons_self ..)
    have hrest : '\n' ∉ rest := fun hmem => hs (List.mem_cons_of_mem _ hmem)
    rw [lastRatings?, if_neg hc, Option.or_eq_some_iff] at h
    rcases h with h | ⟨hnone, h⟩
    · obtain ⟨front, hstand, hlast, hlongest⟩ := ih hrest h
      refine ⟨c :: front, standBehind_cons.2 ⟨rfl, hstand⟩, ?_, ?_⟩
      · rintro (_ | ⟨d, front'⟩) a' b' h'
        · exact Nat.zero_le _
        · exact Nat.succ_le_succ (hlast _ _ _ (standBehind_cons.1 h').2)
      · exact fun b' h' => hlongest b' (standBehind_cons.1 h').2
    · split_ifs at h with hword
      have hword : Text.isWord before = false := eq_false_of_ne_true hword
      obtain ⟨hstand, hlongest⟩ := ratingsAt?_eq_some_iff.1 h
      refine ⟨[], standBehind_nil.2 ⟨hword, hstand⟩, ?_, ?_⟩
      · rintro (_ | ⟨d, front'⟩) a' b' h'
        · exact Nat.zero_le _
        · obtain ⟨p, hp⟩ := (standBehind_cons.1 h').2.found hrest
          rw [hnone] at hp
          cases hp
      · exact fun b' h' => hlongest b' (standBehind_nil.1 h').2

/-- There is one last place, with one pair of texts. -/
theorem StandLast.unique (h : StandLast before front s a b)
    (h' : StandLast before front' s a' b') : a' = a ∧ b' = b := by
  have hlength := Nat.le_antisymm (h.last _ _ _ h'.stand) (h'.last _ _ _ h.stand)
  obtain ⟨t, rfl, hword, ht⟩ := h.stand
  obtain ⟨t', htext, hword', ht'⟩ := h'.stand
  obtain ⟨rfl, rfl⟩ := List.append_inj htext hlength.symm
  obtain rfl := ht.first_unique ht'
  exact ⟨rfl, ht.second_unique ht' (Nat.le_antisymm (h.longest _ h'.stand) (h'.longest _ h.stand))⟩

theorem lastRatings?_eq_some_iff (hs : '\n' ∉ s) : lastRatings? before s = some (a, b) ↔
    ∃ front, StandLast before front s a b := by
  refine ⟨lastRatings?_sound hs, ?_⟩
  rintro ⟨front, h⟩
  obtain ⟨⟨a', b'⟩, hfound⟩ := h.stand.found hs
  obtain ⟨front', h'⟩ := lastRatings?_sound hs hfound
  obtain ⟨rfl, rfl⟩ := h.unique h'
  exact hfound

/-! ## The first mark -/

variable {line tail : List Char}

theorem ratingTexts?_sound {p : List Char × List Char} (h : ratingTexts? line = some p) :
    ∃ front tail, line = front ++ (finalMark ++ tail) ∧ lastRatings? ':' tail = some p := by
  induction line with
  | nil => cases h
  | cons c rest ih =>
    rw [ratingTexts?, Option.or_eq_some_iff] at h
    rcases h with h | ⟨-, h⟩
    · obtain ⟨tail, hmark, hlast⟩ := Option.bind_eq_some_iff.1 h
      refine ⟨[], tail, ?_, hlast⟩
      rw [List.nil_append, ← dropPrefix?_eq_some_iff, hmark]
    · obtain ⟨front, tail, rfl, hlast⟩ := ih h
      exact ⟨c :: front, tail, rfl, hlast⟩

/-- A line with a mark has a first one. -/
theorem exists_firstMark (h : line = front ++ (finalMark ++ s)) : ∃ tail, FirstMark line tail := by
  classical
  have hsome : ∃ n front tail, line = front ++ (finalMark ++ tail) ∧ front.length = n :=
    ⟨_, front, s, h, rfl⟩
  obtain ⟨first, tail, hfirst, hlength⟩ := Nat.find_spec hsome
  refine ⟨tail, first, hfirst, fun front' tail' h' => ?_⟩
  rw [hlength]
  exact Nat.find_min' hsome ⟨front', tail', h', rfl⟩

theorem FirstMark.unique {tail' : List Char} (h : FirstMark line tail) (h' : FirstMark line tail') :
    tail' = tail := by
  obtain ⟨front, rfl, hfirst⟩ := h
  obtain ⟨front', heq, hfirst'⟩ := h'
  have hlength := Nat.le_antisymm (hfirst _ _ heq) (hfirst' _ _ rfl)
  obtain ⟨-, hmarks⟩ := List.append_inj heq hlength
  exact (List.append_cancel_left hmarks).symm

/-- A mark behind a mark brings no further place: in front of it there is a colon as well. -/
theorem ratingTexts?_mark (hs : '\n' ∉ s) : ratingTexts? (finalMark ++ s) = lastRatings? ':' s := by
  have hdrop := dropPrefix?_append finalMark s
  have hcons : finalMark ++ s = 'A' :: (finalMark.tail ++ s) := rfl
  rw [hcons] at hdrop ⊢
  rw [ratingTexts?, hdrop, Option.bind_some]
  cases hfound : lastRatings? ':' s with
  | some p => rfl
  | none =>
    rw [Option.none_or]
    by_contra hne
    obtain ⟨p, hp⟩ := Option.ne_none_iff_exists'.1 hne
    obtain ⟨front, tail, htext, hlast⟩ := ratingTexts?_sound hp
    have hlength := congrArg List.length htext
    have hle : ([':'] ++ tail).length ≤ s.length := by
      rw [List.length_append, List.length_append, List.length_append] at hlength
      have hmark : finalMark.length = finalMark.tail.length + 1 := rfl
      rw [List.length_append, List.length_singleton]
      omega
    have hcolon : [':'] ++ tail <:+ finalMark.tail ++ s :=
      ⟨front ++ finalMark.dropLast, by rw [htext, List.append_assoc]; rfl⟩
    obtain ⟨u, rfl⟩ := List.suffix_of_suffix_length_le hcolon (List.suffix_append ..) hle
    have hfeed : '\n' ∉ u ++ [':'] := by
      rw [← List.append_assoc] at hs
      exact fun hmem => hs (List.mem_append_left _ hmem)
    have hsome : lastRatings? ':' (u ++ [':'] ++ tail) = some p :=
      lastRatings?_append hfeed (by rw [List.getLastD_concat, hlast])
    rw [List.append_assoc, hfound] at hsome
    cases hsome

theorem FirstMark.ratingTexts?_eq (h : FirstMark line tail) (hline : '\n' ∉ line) :
    ratingTexts? line = lastRatings? ':' tail := by
  obtain ⟨front, rfl, hfirst⟩ := h
  induction front with
  | nil => exact ratingTexts?_mark fun hmem => hline (List.mem_append_right finalMark hmem)
  | cons c front ih =>
    have hdrop : Text.dropPrefix? finalMark (c :: (front ++ (finalMark ++ tail))) = none := by
      refine Option.eq_none_iff_forall_ne_some.2 fun rest hrest => ?_
      rw [dropPrefix?_eq_some_iff] at hrest
      exact absurd (hfirst [] rest hrest) (Nat.not_succ_le_zero _)
    rw [List.cons_append, ratingTexts?, hdrop, Option.bind_none, Option.none_or]
    refine ih (fun hmem => hline (List.mem_cons_of_mem _ hmem)) fun front' tail' heq => ?_
    exact Nat.le_of_succ_le_succ (hfirst (c :: front') tail' (congrArg (c :: ·) heq))

theorem ratingTexts?_eq_some_iff (hline : '\n' ∉ line) :
    ratingTexts? line = some (a, b) ↔ FinalTexts line a b := by
  constructor
  · intro h
    obtain ⟨front, s, heq, -⟩ := ratingTexts?_sound h
    obtain ⟨tail, hmark⟩ := exists_firstMark heq
    have htail : '\n' ∉ tail := by
      obtain ⟨first, rfl, -⟩ := hmark
      exact fun hmem => hline (List.mem_append_right _ (List.mem_append_right _ hmem))
    rw [hmark.ratingTexts?_eq hline, lastRatings?_eq_some_iff htail] at h
    obtain ⟨place, hplace⟩ := h
    exact ⟨tail, place, hmark, hplace⟩
  · rintro ⟨tail, place, hmark, hplace⟩
    have htail : '\n' ∉ tail := by
      obtain ⟨first, rfl, -⟩ := hmark
      exact fun hmem => hline (List.mem_append_right _ (List.mem_append_right _ hmem))
    rw [hmark.ratingTexts?_eq hline, lastRatings?_eq_some_iff htail]
    exact ⟨place, hplace⟩

end Places

/-! ## What a number denotes -/

section Values

variable {s whole fraction rest : List Char} {c : Char}

/-- A digit of another script. -/
def Foreign (c : Char) : Prop := c.isDigit = false ∧ 0x660 ≤ c.toNat

theorem Foreign.ne (h : Foreign c) {d : Char} (hd : d.toNat < 0x660) : c ≠ d := by
  rintro rfl
  exact absurd h.2 (Nat.not_le.2 hd)

/-- Digits that are not all ASCII have a first one that is not. -/
theorem exists_foreign {ds : List Char} (hds : ∀ c ∈ ds, Text.isDigit c = true)
    (h : ¬ ∀ c ∈ ds, c.isDigit = true) :
    ∃ first c more, ds = first ++ c :: more ∧ (∀ c ∈ first, c.isDigit = true) ∧ Foreign c := by
  induction ds with
  | nil => exact absurd (fun c hc => (List.not_mem_nil hc).elim) h
  | cons d ds ih =>
    obtain ⟨hd, hds⟩ := List.forall_mem_cons.1 hds
    by_cases hascii : d.isDigit = true
    · obtain ⟨first, c, more, rfl, hfirst, hc⟩ :=
        ih hds fun hall => h (List.forall_mem_cons.2 ⟨hascii, hall⟩)
      exact ⟨d :: first, c, more, rfl, List.forall_mem_cons.2 ⟨hascii, hfirst⟩, hc⟩
    · refine ⟨[], d, ds, rfl, nofun, eq_false_of_ne_true hascii, ?_⟩
      exact (isDigit_or_of_isDigit hd).resolve_left hascii

/-- Where another script begins a text is not read on. -/
theorem readExponent?_foreign (hc : Foreign c) : Numeral.readExponent? (c :: rest) = none := by
  have he : c ≠ 'e' := hc.ne (by decide)
  have hE : c ≠ 'E' := hc.ne (by decide)
  rw [Numeral.readExponent?, decide_eq_false he, decide_eq_false hE]
  rfl

theorem takeWhile_foreign {first : List Char} (h : ∀ c ∈ first, c.isDigit = true) (hc : Foreign c)
    (more : List Char) : (first ++ c :: more).takeWhile Char.isDigit = first := by
  rw [List.takeWhile_append_of_pos h, List.takeWhile_cons_of_neg (by rw [hc.1]; nofun),
    List.append_nil]

theorem dropWhile_foreign {first : List Char} (h : ∀ c ∈ first, c.isDigit = true) (hc : Foreign c)
    (more : List Char) : (first ++ c :: more).dropWhile Char.isDigit = c :: more := by
  rw [List.dropWhile_append_of_pos h, List.dropWhile_cons_of_neg (by rw [hc.1]; nofun)]

theorem DigitText.head (h : DigitText s whole fraction) :
    ∃ c rest, s = c :: rest ∧ Text.isDigit c = true := by
  obtain ⟨c, more, rfl⟩ := List.exists_cons_of_ne_nil h.whole_ne
  exact ⟨c, _, h.text_eq, h.whole_digits c (List.mem_cons_self ..)⟩

/-- What starts with a digit of any script has no sign and is not the name of a double. -/
theorem ne_of_isDigit (h : Text.isDigit c = true) {d : Char} (hd : Text.isDigit d = false) : c ≠ d := by
  rintro rfl
  exact Bool.false_ne_true (hd.symm.trans h)

theorem toLower_of_isDigit_any (h : Text.isDigit c = true) : c.toLower = c := by
  rcases isDigit_or_of_isDigit h with hascii | hfar
  · exact toLower_of_isDigit hascii
  · refine dif_neg fun hupper => ?_
    have hle : c.toNat ≤ 90 := UInt32.le_iff_toNat_le.1 hupper.2
    omega

/-- A number with digits of another script is not read. -/
theorem read?_foreign (negative : Bool) (h : DigitText s whole fraction)
    (hforeign : ¬ ∀ c ∈ whole ++ fraction, c.isDigit = true) :
    Numeral.read? (minus negative ++ s) = none := by
  have hsign : Numeral.readSign (minus negative ++ s) = (negative, s) := by
    obtain ⟨c, rest, rfl, hc⟩ := h.head
    exact readSign_minus_of_ne negative (ne_of_isDigit hc (by decide +kernel))
      (ne_of_isDigit hc (by decide +kernel)) rest
  unfold Numeral.read?
  rw [hsign]
  dsimp only
  by_cases hwhole : ∀ c ∈ whole, c.isDigit = true
  · -- the first digit of another script stands behind the point
    obtain ⟨first, c, more, hsplit, hfirst, hc⟩ := exists_foreign h.fraction_digits fun hall =>
      hforeign (List.forall_mem_append.2 ⟨hwhole, hall⟩)
    have htext : s = whole ++ '.' :: fraction := by
      rw [h.text_eq, if_neg (by rw [hsplit]; exact List.append_ne_nil_of_right_ne_nil _ nofun)]
    have htake : s.takeWhile Char.isDigit = whole := by
      rw [htext, List.takeWhile_append_of_pos hwhole]
      exact List.append_nil _
    have hdrop : s.dropWhile Char.isDigit = '.' :: fraction := by
      rw [htext, List.dropWhile_append_of_pos hwhole]
      rfl
    simp only [htake, hdrop, hsplit, takeWhile_foreign hfirst hc, dropWhile_foreign hfirst hc,
      readExponent?_foreign hc, Option.map_none, ite_self]
  · -- it stands in front of the point, if there is any
    obtain ⟨first, c, more, hsplit, hfirst, hc⟩ := exists_foreign h.whole_digits hwhole
    have hpoint : c ≠ '.' := hc.ne (by decide)
    obtain ⟨rest, rfl⟩ : ∃ rest, s = first ++ c :: rest :=
      ⟨_, by rw [h.text_eq, hsplit, List.append_assoc, List.cons_append]⟩
    rw [takeWhile_foreign hfirst hc, dropWhile_foreign hfirst hc]
    split
    · next heq => exact absurd (List.cons.inj heq).1 hpoint
    · dsimp only
      rw [readExponent?_foreign hc, Option.map_none, ite_self]

/-- A number is read as the double that it denotes, and only if it denotes one. -/
theorem float?_eq_some_iff (h : IsNumber s) {x : Float} : float? s = some x ↔ Denotes s x := by
  constructor
  · intro hread
    obtain ⟨negative, whole, fraction, digits, hdigits, rfl⟩ := h
    by_cases hascii : ∀ c ∈ whole ++ fraction, c.isDigit = true
    · obtain ⟨hwhole, hfraction⟩ := List.forall_mem_append.1 hascii
      have hpositional : Positional digits whole fraction :=
        ⟨hdigits.text_eq, hdigits.whole_ne, hwhole, hfraction⟩
      rw [float?_positional negative hpositional] at hread
      exact ⟨negative, whole, fraction, digits, hpositional, rfl, (Option.some.inj hread).symm⟩
    · obtain ⟨c, rest, hcons, hc⟩ := hdigits.head
      have hne {d : Char} (hd : Text.isDigit d = false) : c ≠ d := ne_of_isDigit hc hd
      have hnone := read?_foreign negative hdigits hascii
      have hlower {d : Char} (hd : Text.isDigit d = false) : c.toLower ≠ d := by
        rw [toLower_of_isDigit_any hc]
        exact hne hd
      rw [hcons] at hread hnone
      rw [float?_minus_of_ne negative (hne (by decide +kernel)) (hne (by decide +kernel))
        (hlower (by decide +kernel)) (hlower (by decide +kernel)), hnone] at hread
      cases hread
  · rintro ⟨negative, whole, fraction, digits, hpositional, rfl, rfl⟩
    exact float?_positional negative hpositional

end Values

/-! ## The line -/

theorem StandLast.numbers {before : Char} {front s a b : List Char}
    (h : StandLast before front s a b) : IsNumber a ∧ IsNumber b := by
  obtain ⟨t, -, -, hstand⟩ := h.stand
  cases hstand with
  | mk ha _ hb => exact ⟨ha, hb⟩

theorem FinalTexts.unique {line a b a' b' : List Char} (h : FinalTexts line a b)
    (h' : FinalTexts line a' b') : a' = a ∧ b' = b := by
  obtain ⟨tail, front, hmark, hlast⟩ := h
  obtain ⟨tail', front', hmark', hlast'⟩ := h'
  obtain rfl := hmark.unique hmark'
  exact hlast.unique hlast'

theorem FinalTexts.numbers {line a b : List Char} (h : FinalTexts line a b) :
    IsNumber a ∧ IsNumber b := by
  obtain ⟨_, _, -, hlast⟩ := h
  exact hlast.numbers

/-- All the digits of a number that denotes a double are ASCII. -/
theorem Denotes.ascii {s : List Char} {x : Float} (h : Denotes s x) :
    ∀ c ∈ s, Text.isDigit c = true → c.isDigit = true := by
  obtain ⟨negative, whole, fraction, digits, hdigits, rfl, -⟩ := h
  intro c hc hany
  rw [hdigits.text_eq, List.mem_append, List.mem_append] at hc
  rcases hc with hc | hc | hc
  · cases negative with
    | false => cases hc
    | true => exact absurd (List.mem_singleton.1 hc) (ne_of_isDigit hany (by decide +kernel))
  · exact hdigits.whole_digits c hc
  · split_ifs at hc
    · cases hc
    · rcases List.mem_cons.1 hc with hc | hc
      · exact absurd hc (ne_of_isDigit hany isDigit_point)
      · exact hdigits.fraction_digits c hc

/-- **A final line is read exactly as its grammar says.** A line gives ratings if and only if, behind
its first mark, it has a last place for two numbers, and both denote a double; then it gives those
two. A line whose last place has digits of another script gives none, whatever stands before. -/
theorem readFinalLine?_iff (line : String) (hline : '\n' ∉ line.toList) :
    (∀ r, readFinalLine? line = some r ↔
      ∃ a b, FinalTexts line.toList a b ∧ Denotes a r.aElo ∧ Denotes b r.bElo) ∧
    ∀ a b c, FinalTexts line.toList a b → c ∈ a ++ b → Text.isDigit c = true → c.isDigit = false →
      readFinalLine? line = none := by
  have hiff (r : FinalRatings) : readFinalLine? line = some r ↔
      ∃ a b, FinalTexts line.toList a b ∧ Denotes a r.aElo ∧ Denotes b r.bElo := by
    constructor
    · intro h
      unfold readFinalLine? at h
      simp only [Option.bind_eq_bind, Option.bind_eq_some_iff] at h
      obtain ⟨⟨a, b⟩, htexts, x, hx, y, hy, hr⟩ := h
      obtain rfl := Option.some.inj hr
      rw [ratingTexts?_eq_some_iff hline] at htexts
      obtain ⟨ha, hb⟩ := htexts.numbers
      exact ⟨a, b, htexts, (float?_eq_some_iff ha).1 hx, (float?_eq_some_iff hb).1 hy⟩
    · rintro ⟨a, b, htexts, hx, hy⟩
      obtain ⟨ha, hb⟩ := htexts.numbers
      rw [← ratingTexts?_eq_some_iff hline] at htexts
      unfold readFinalLine?
      rw [htexts]
      simp only [(float?_eq_some_iff ha).2 hx, (float?_eq_some_iff hb).2 hy, Option.bind_eq_bind,
        Option.bind_some]
      rfl
  refine ⟨hiff, fun a b c htexts hc hany hforeign => ?_⟩
  refine Option.eq_none_iff_forall_ne_some.2 fun r hr => ?_
  obtain ⟨a', b', htexts', hx, hy⟩ := (hiff r).1 hr
  obtain ⟨rfl, rfl⟩ := htexts.unique htexts'
  have hascii : c.isDigit = true :=
    (List.mem_append.1 hc).elim (fun h => hx.ascii c h hany) (fun h => hy.ascii c h hany)
  exact Bool.false_ne_true (hforeign.symm.trans hascii)

/-- A place with digits of another script hides the one before it. -/
def hiddenRatings : String := "Arena Finished: a_elo=1, b_elo=2 a_elo=3, b_elo=٤"

theorem readFinalLine?_hidden : '\n' ∉ hiddenRatings.toList ∧ readFinalLine? hiddenRatings = none ∧
    FinalTexts hiddenRatings.toList ['3'] ['٤'] := by
  have hline : '\n' ∉ hiddenRatings.toList := by decide
  have hplace : lastRatings? ' ' "a_elo=3, b_elo=٤".toList = some (['3'], ['٤']) := by
    show lastRatings? ' ' ('a' :: "_elo=3, b_elo=٤".toList) = _
    rw [lastRatings?, lastRatings?_eq_none (by decide), isWord_space, if_neg Bool.false_ne_true]
    decide +kernel
  have hlast : lastRatings? ':' (" a_elo=1, b_elo=2 ".toList ++ "a_elo=3, b_elo=٤".toList) =
      some (['3'], ['٤']) := lastRatings?_append (by decide) hplace
  have htext : hiddenRatings.toList =
      finalMark ++ (" a_elo=1, b_elo=2 ".toList ++ "a_elo=3, b_elo=٤".toList) := by decide
  have htexts : FinalTexts hiddenRatings.toList ['3'] ['٤'] := by
    rw [← ratingTexts?_eq_some_iff hline, htext, ratingTexts?_mark (by decide), hlast]
  have hdigit : Text.isDigit '٤' = true := by decide +kernel
  exact ⟨hline, (readFinalLine?_iff hiddenRatings hline).2 _ _ '٤' htexts (by decide) hdigit rfl,
    htexts⟩

end EngineDuel.Report

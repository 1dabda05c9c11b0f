import EngineDuel.Calendar
import EngineDuel.Proofs.Number.ReadBack
import EngineDuel.Report.FinalLine

/-!
# The final line read back

A final line with a moment before it is read as the ratings that it was printed for, exactly
(`readFinalLine?_stamped`).

1. Printed numbers and moments are digits and a few marks (`DigitsAnd`), so the letters by which a
   reader finds its way are not among them.
2. A finite double in front of something that does not continue it is taken as a whole
   (`spanNumber?_plain`), hence both ratings are (`ratingsAt?_ratingsPart`).
3. Of the places of a line the last counts (`lastRatings?_append`), and of the marks the first
   (`ratingTexts?_append`).
-/

namespace EngineDuel.Report

open Number

/-! ## Printed characters -/

/-- Each character is a digit or one of the given marks. -/
def DigitsAnd (marks s : List Char) : Prop := ∀ c ∈ s, c.isDigit = true ∨ c ∈ marks

instance (marks s : List Char) : Decidable (DigitsAnd marks s) :=
  List.decidableBAll (fun c : Char => c.isDigit = true ∨ c ∈ marks) s

section Characters

variable {marks s t : List Char}

theorem DigitsAnd.of_isDigit (h : ∀ c ∈ s, c.isDigit = true) : DigitsAnd marks s :=
  fun c hc => .inl (h c hc)

theorem DigitsAnd.mono {marks' : List Char} (h : DigitsAnd marks s) (hsub : marks ⊆ marks') :
    DigitsAnd marks' s :=
  fun c hc => (h c hc).imp_right (hsub ·)

theorem DigitsAnd.subset (h : DigitsAnd marks s) (hsub : t ⊆ s) : DigitsAnd marks t :=
  fun c hc => h c (hsub hc)

theorem DigitsAnd.not_mem {c : Char} (h : DigitsAnd marks s) (hdigit : c.isDigit = false)
    (hmark : c ∉ marks) : c ∉ s :=
  fun hc => (h c hc).elim (fun hd => Bool.false_ne_true (hdigit.symm.trans hd)) hmark

theorem digitsAnd_append : DigitsAnd marks (s ++ t) ↔ DigitsAnd marks s ∧ DigitsAnd marks t :=
  List.forall_mem_append

theorem digitsAnd_digitsOf (n : ℕ) : DigitsAnd marks (digitsOf n) :=
  .of_isDigit fun _ => isDigit_of_mem_digitsOf

theorem digitsAnd_toString (n : ℕ) : DigitsAnd marks (toString n).toList := by
  rw [Nat.toString_eq_repr, Nat.toList_repr]
  exact digitsAnd_digitsOf n

theorem digitsAnd_zeros (n : ℕ) : DigitsAnd marks (List.replicate n '0') :=
  .of_isDigit fun _ => isDigit_of_mem_replicate

theorem digitsAnd_padded (width n : ℕ) : DigitsAnd marks (padded width n).toList := by
  rw [padded, String.toList_ofList]
  exact digitsAnd_append.2 ⟨digitsAnd_zeros _, digitsAnd_digitsOf n⟩

end Characters

/-- The marks in moments. -/
def stampMarks : List Char := ['[', '+', '-', 'T', ':', 'Z', ']']

theorem digitsAnd_stamp (now : Moment) : DigitsAnd stampMarks now.stamp.toList := by
  have hyear (y : ℕ) : DigitsAnd stampMarks (Moment.yearText y).toList := by
    unfold Moment.yearText
    split_ifs
    · rw [String.toList_append, digitsAnd_append]
      exact ⟨by decide, digitsAnd_toString y⟩
    · exact digitsAnd_padded 4 y
  unfold Moment.stamp Moment.toSecond
  simp only [String.toList_append, digitsAnd_append, hyear, digitsAnd_padded, and_true, true_and,
    String.reduceToList]
  decide

theorem digitsAnd_plain {x : Float} (h : isFinite x = true) :
    DigitsAnd ['-', '.'] (plain x).toList := by
  obtain ⟨whole, fraction, htext, -, -⟩ := positional_text (shortest (pattern x))
  rw [plain_toList h, htext.text_eq, digitsAnd_append, digitsAnd_append]
  refine ⟨?_, .of_isDigit htext.whole_digits, ?_⟩
  · cases isNegative x <;> decide
  · split_ifs
    · decide
    · exact digitsAnd_append.2 ⟨(by decide : DigitsAnd _ ['.']), .of_isDigit htext.fraction_digits⟩

/-- The marks and letters of doubles, finite or not. -/
def numberMarks : List Char := ['-', '.', 'i', 'n', 'f', 'N', 'a']

theorem digitsAnd_fixed (places : ℕ) (x : Float) :
    DigitsAnd numberMarks (fixed places x).toList := by
  have hsign : DigitsAnd numberMarks (Layout.plain.sign (isNegative x)) := by
    cases isNegative x <;> decide
  by_cases hfinite : pattern x < infinityPattern
  · have hdigits (n m : ℕ) : DigitsAnd numberMarks (List.replicate n '0' ++ digitsOf m) :=
      digitsAnd_append.2 ⟨digitsAnd_zeros n, digitsAnd_digitsOf m⟩
    unfold fixed
    dsimp only
    rw [if_pos hfinite, String.toList_ofList, digitsAnd_append, digitsAnd_append]
    refine ⟨⟨hsign, (hdigits _ _).subset (List.take_subset _ _)⟩, ?_⟩
    split_ifs
    · decide
    · exact digitsAnd_append.2 ⟨(by decide : DigitsAnd _ ['.']),
        (hdigits _ _).subset (List.drop_subset _ _)⟩
  · unfold fixed
    dsimp only
    rw [if_neg hfinite, plain, Layout.text, String.toList_ofList, Layout.chars, if_neg hfinite]
    split_ifs
    · exact digitsAnd_append.2 ⟨hsign, (by decide : DigitsAnd _ ['i', 'n', 'f'])⟩
    · decide

/-! ## Numbers -/

theorem covers_eq (ranges : Text.Ranges) (n : ℕ) :
    ranges.covers n = ranges.toList.any fun r => decide (r.1 ≤ n) && decide (n ≤ r.2) :=
  (Array.any_toList ..).symm

theorem isDigit_of_isDigit {c : Char} (h : c.isDigit = true) : Text.isDigit c = true := by
  have hrange : 48 ≤ c.toNat ∧ c.toNat ≤ 57 := by
    rw [Char.isDigit, Bool.and_eq_true, decide_eq_true_iff, decide_eq_true_iff] at h
    exact ⟨UInt32.le_iff_toNat_le.1 h.1, UInt32.le_iff_toNat_le.1 h.2⟩
  rw [Text.isDigit, Text.Ranges.covers, Array.any_eq_true]
  refine ⟨0, by decide, ?_⟩
  show (decide (48 ≤ c.toNat) && decide (c.toNat ≤ 57)) = true
  rw [decide_eq_true hrange.1, decide_eq_true hrange.2]
  rfl

/-- What continues neither the digits of a number nor its point. -/
def Stops (rest : List Char) : Prop := ∀ c ∈ rest.head?, Text.isDigit c = false ∧ c ≠ '.'

theorem spanDigits_append {ds rest : List Char} (hds : ∀ c ∈ ds, c.isDigit = true)
    (hrest : ∀ c ∈ rest.head?, Text.isDigit c = false) : spanDigits (ds ++ rest) = (ds, rest) := by
  have hds' : ∀ c ∈ ds, Text.isDigit c = true := fun c hc => isDigit_of_isDigit (hds c hc)
  have htake : rest.takeWhile Text.isDigit = [] := by
    cases rest with
    | nil => rfl
    | cons c rest => rw [List.takeWhile_cons_of_neg (by simp [hrest c rfl])]
  have hdrop : rest.dropWhile Text.isDigit = rest := by
    cases rest with
    | nil => rfl
    | cons c rest => rw [List.dropWhile_cons_of_neg (by simp [hrest c rfl])]
  rw [spanDigits, List.takeWhile_append_of_pos hds', List.dropWhile_append_of_pos hds', htake,
    hdrop, List.append_nil]

/-- A number without a sign at the start of a text, and what follows it. -/
def spanUnsigned? (s : List Char) : Option (List Char × List Char) :=
  let (whole, s) := spanDigits s
  if whole.isEmpty then none
  else
    match s with
    | '.' :: rest =>
      let (fraction, rest) := spanDigits rest
      if fraction.isEmpty then some (whole, s) else some (whole ++ '.' :: fraction, rest)
    | _ => some (whole, s)

theorem spanNumber?_sign (negative : Bool) {s : List Char}
    (h : negative = false → s.head? ≠ some '-') :
    spanNumber? (minus negative ++ s) =
      (spanUnsigned? s).map fun found => (minus negative ++ found.1, found.2) := by
  have hsign : spanNumber? (minus negative ++ s) =
      let (whole, s) := spanDigits s
      if whole.isEmpty then none
      else
        match s with
        | '.' :: rest =>
          let (fraction, rest) := spanDigits rest
          if fraction.isEmpty then some (minus negative ++ whole, s)
          else some (minus negative ++ whole ++ '.' :: fraction, rest)
        | _ => some (minus negative ++ whole, s) := by
    cases negative with
    | true => rfl
    | false =>
      show spanNumber? s = _
      unfold spanNumber?
      split
      next sign rest heq =>
      split at heq
      · exact absurd rfl (h rfl)
      · cases heq
        rfl
  rw [hsign, spanUnsigned?]
  dsimp only
  split_ifs
  · rfl
  · split
    · split_ifs
      · rfl
      · rw [List.append_assoc]
        rfl
    · rfl

theorem spanUnsigned?_positional {s whole fraction rest : List Char}
    (h : Positional s whole fraction) (hrest : Stops rest) :
    spanUnsigned? (s ++ rest) = some (s, rest) := by
  have hwhole : whole.isEmpty = false := List.isEmpty_eq_false_iff.2 h.whole_ne
  have hspan : spanDigits (whole ++ ((if fraction = [] then [] else '.' :: fraction) ++ rest)) =
      (whole, (if fraction = [] then [] else '.' :: fraction) ++ rest) := by
    refine spanDigits_append h.whole_digits ?_
    split_ifs
    · exact fun c hc => (hrest c hc).1
    · rintro c ⟨⟩
      decide +kernel
  unfold spanUnsigned?
  rw [h.text_eq, List.append_assoc, hspan]
  dsimp only
  rw [hwhole, if_neg Bool.false_ne_true]
  by_cases hnone : fraction = []
  · rw [if_pos hnone, List.nil_append, List.append_nil]
    split
    · exact absurd rfl (hrest '.' rfl).2
    · rfl
  · have hfraction : fraction.isEmpty = false := List.isEmpty_eq_false_iff.2 hnone
    have hdigits := spanDigits_append h.fraction_digits fun c hc => (hrest c hc).1
    rw [if_neg hnone]
    show (if (spanDigits (fraction ++ rest)).1.isEmpty then _
      else some (whole ++ '.' :: (spanDigits (fraction ++ rest)).1,
        (spanDigits (fraction ++ rest)).2)) = _
    rw [hdigits, hfraction, if_neg Bool.false_ne_true]

/-- A finite double is taken as a whole. -/
theorem spanNumber?_plain {x : Float} (h : isFinite x = true) {rest : List Char}
    (hrest : Stops rest) :
    spanNumber? ((plain x).toList ++ rest) = some ((plain x).toList, rest) := by
  obtain ⟨whole, fraction, htext, -, -⟩ := positional_text (shortest (pattern x))
  have hhead : (positionalText false (shortest (pattern x)) ++ rest).head? ≠ some '-' := by
    obtain ⟨c, text, heq, hc⟩ := htext.head
    rw [heq]
    rintro ⟨⟩
    cases hc
  rw [plain_toList h, List.append_assoc, spanNumber?_sign _ fun _ => hhead,
    spanUnsigned?_positional htext hrest]
  rfl

/-! ## Ratings -/

/-- Both ratings behind the first letter of their mark. -/
def ratingsTail (a b : List Char) : List Char :=
  aMark.tail ++ (a ++ ([',', ' '] ++ (bMark ++ b)))

/-- The end of a final line: both ratings. -/
def ratingsPart (a b : List Char) : List Char := 'a' :: ratingsTail a b

theorem ratingsPart_eq (a b : List Char) :
    ratingsPart a b = aMark ++ (a ++ ([','] ++ (' ' :: (bMark ++ b)))) := rfl

theorem digitsAnd_ratingsTail {a b : Float} (ha : isFinite a = true) (hb : isFinite b = true) :
    DigitsAnd ['-', '.', '_', 'e', 'l', 'o', '=', ',', ' ', 'b']
      (ratingsTail (plain a).toList (plain b).toList) := by
  simp only [ratingsTail, digitsAnd_append]
  exact ⟨by decide, (digitsAnd_plain ha).mono (by decide), by decide, by decide,
    (digitsAnd_plain hb).mono (by decide)⟩

theorem dropPrefix?_append (t s : List Char) : Text.dropPrefix? t (t ++ s) = some s := by
  rw [Text.dropPrefix?, if_pos (List.isPrefixOf_iff_prefix.2 (List.prefix_append t s)),
    List.drop_left]

theorem dropPrefix?_cons_of_ne {c d : Char} (h : c ≠ d) (t s : List Char) :
    Text.dropPrefix? (c :: t) (d :: s) = none := by
  rw [Text.dropPrefix?, List.isPrefixOf, beq_eq_false_iff_ne.2 h]
  rfl

theorem ratingsAt?_ratingsPart {a b : Float} (ha : isFinite a = true) (hb : isFinite b = true) :
    ratingsAt? (ratingsPart (plain a).toList (plain b).toList) =
      some ((plain a).toList, (plain b).toList) := by
  have hcomma (rest : List Char) : Stops ([','] ++ rest) := by
    rintro c ⟨⟩
    decide +kernel
  have hblank (rest : List Char) : Text.trimStart (' ' :: (bMark ++ rest)) = bMark ++ rest := rfl
  have hend : Stops [] := nofun
  have hlast := spanNumber?_plain hb hend
  rw [List.append_nil] at hlast
  unfold ratingsAt?
  rw [ratingsPart_eq]
  simp only [dropPrefix?_append, spanNumber?_plain ha (hcomma _), hblank, hlast,
    Option.bind_eq_bind, Option.bind_some]
  rfl

/-! ## The last place -/

theorem ratingsAt?_cons_of_ne {c : Char} (h : c ≠ 'a') (s : List Char) :
    ratingsAt? (c :: s) = none := by
  have hdrop : Text.dropPrefix? aMark (c :: s) = none := dropPrefix?_cons_of_ne h.symm _ s
  rw [ratingsAt?, hdrop]
  rfl

/-- Without the letter that the ratings begin with there is no place for them. -/
theorem lastRatings?_eq_none {s : List Char} (h : 'a' ∉ s) (before : Char) :
    lastRatings? before s = none := by
  induction s generalizing before with
  | nil => rfl
  | cons c rest ih =>
    have hc : c ≠ 'a' := fun heq => h (heq ▸ List.mem_cons_self ..)
    rw [lastRatings?, ratingsAt?_cons_of_ne hc, ih (fun hmem => h (List.mem_cons_of_mem _ hmem)),
      ite_self, Option.or_none, ite_self]

/-- A place further on in the same line counts. -/
theorem lastRatings?_append {before : Char} {s t : List Char} {found : List Char × List Char}
    (hs : '\n' ∉ s) (ht : lastRatings? (s.getLastD before) t = some found) :
    lastRatings? before (s ++ t) = some found := by
  induction s generalizing before with
  | nil => exact ht
  | cons c rest ih =>
    have hc : c ≠ '\n' := fun heq => hs (heq ▸ List.mem_cons_self ..)
    rw [List.getLastD_cons] at ht
    rw [List.cons_append, lastRatings?, if_neg hc,
      ih (fun hmem => hs (List.mem_cons_of_mem _ hmem)) ht, Option.some_or]

theorem isWord_space : Text.isWord ' ' = false := by
  rw [Text.isWord, covers_eq]
  decide +kernel

/-- The ratings at the end of a line are the last. -/
theorem lastRatings?_ratingsPart {a b : Float} (ha : isFinite a = true) (hb : isFinite b = true)
    {s : List Char} (hs : '\n' ∉ s) (before : Char) :
    lastRatings? before (s ++ ' ' :: ratingsPart (plain a).toList (plain b).toList) =
      some ((plain a).toList, (plain b).toList) := by
  have hfeed : '\n' ∉ s ++ [' '] := by simp [hs]
  have hrest := (digitsAnd_ratingsTail ha hb).not_mem (c := 'a') (by decide) (by decide)
  have hplace := ratingsAt?_ratingsPart ha hb
  rw [← List.singleton_append, ← List.append_assoc]
  refine lastRatings?_append hfeed ?_
  rw [ratingsPart] at hplace ⊢
  rw [List.getLastD_concat, lastRatings?, if_neg (by decide : 'a' ≠ '\n'),
    lastRatings?_eq_none hrest, isWord_space, if_neg Bool.false_ne_true, hplace, Option.none_or]

/-! ## The first mark -/

theorem ratingTexts?_append {s : List Char} (h : 'A' ∉ s) (t : List Char) :
    ratingTexts? (s ++ t) = ratingTexts? t := by
  induction s with
  | nil => rfl
  | cons c rest ih =>
    have hc : c ≠ 'A' := fun heq => h (heq ▸ List.mem_cons_self ..)
    have hdrop : Text.dropPrefix? finalMark (c :: (rest ++ t)) = none :=
      dropPrefix?_cons_of_ne hc.symm _ _
    rw [List.cons_append, ratingTexts?, hdrop, Option.bind_none, Option.none_or,
      ih fun hmem => h (List.mem_cons_of_mem _ hmem)]

theorem ratingTexts?_finalMark {s : List Char} {found : List Char × List Char}
    (h : lastRatings? ':' s = some found) : ratingTexts? (finalMark ++ s) = some found := by
  have hdrop := dropPrefix?_append finalMark s
  rw [show finalMark ++ s = 'A' :: (finalMark.tail ++ s) from rfl] at hdrop ⊢
  rw [ratingTexts?, hdrop, Option.bind_some, h, Option.some_or]

/-! ## The line -/

/-- What stands between the mark and the ratings. -/
def counts (s : Standings) : String :=
  " total=" ++ toString s.games.toNat ++ ", a_wins=" ++ toString s.aWins.toNat
    ++ ", b_wins=" ++ toString s.bWins.toNat ++ ", draws=" ++ toString s.draws.toNat
    ++ ", black_wins=" ++ toString s.blackWins.toNat
    ++ ", white_wins=" ++ toString s.whiteWins.toNat
    ++ ", a_win_rate=" ++ percentage (s.rate s.aWins)
    ++ ", b_win_rate=" ++ percentage (s.rate s.bWins)
    ++ ", draw_rate=" ++ percentage (s.rate s.draws) ++ ","

theorem finalLine_toList (s : Standings) (r : Ratings) :
    (finalLine s r).toList = finalMark ++
      ((counts s).toList ++ ' ' :: ratingsPart (plain r.a).toList (plain r.b).toList) := by
  have hmark : "Arena Finished: total=".toList = finalMark ++ " total=".toList := by decide
  have ha : ", a_elo=".toList = ",".toList ++ ' ' :: aMark := by decide
  have hb : ", b_elo=".toList = [','] ++ ' ' :: bMark := by decide
  unfold finalLine counts
  simp only [ratingsPart_eq, String.toList_append, hmark, ha, hb, List.append_assoc,
    List.cons_append]

/-- The marks and letters of a final line. -/
def lineMarks : List Char :=
  [' ', '%', ',', '-', '.', ':', '=', '_', 'A', 'F', 'N', 'a', 'b', 'c', 'd', 'e', 'f', 'h', 'i',
    'k', 'l', 'n', 'o', 'r', 's', 't', 'w']

theorem digitsAnd_counts (s : Standings) : DigitsAnd lineMarks (counts s).toList := by
  have hpercentage (x : Float) : DigitsAnd lineMarks (percentage x).toList := by
    rw [percentage, String.toList_append, digitsAnd_append]
    exact ⟨(digitsAnd_fixed 1 x).mono (by decide), by decide⟩
  unfold counts
  simp only [String.toList_append, digitsAnd_append, hpercentage, digitsAnd_toString, and_true,
    String.reduceToList]
  decide

/-- **The ratings are read from a final line exactly**, and from no place before it. -/
theorem readFinalLine?_stamped (now : Moment) (s : Standings) {r : Ratings}
    (ha : isFinite r.a = true) (hb : isFinite r.b = true) :
    readFinalLine? (now.stamp ++ " " ++ finalLine s r) = some ⟨r.a, r.b⟩ := by
  have hstamp : 'A' ∉ now.stamp.toList ++ [' '] := by
    have := (digitsAnd_stamp now).not_mem (c := 'A') (by decide) (by decide)
    simp [this]
  have hcounts : '\n' ∉ (counts s).toList :=
    (digitsAnd_counts s).not_mem (by decide) (by decide)
  have hspace : " ".toList = [' '] := rfl
  rw [readFinalLine?, String.toList_append, String.toList_append, hspace, finalLine_toList,
    ratingTexts?_append hstamp, ratingTexts?_finalMark (lastRatings?_ratingsPart ha hb hcounts ':')]
  simp only [Option.bind_eq_bind, Option.bind_some, float?_plain ha, float?_plain hb]
  rfl

/-- What stands in no moment and in no final line does not stand in the two together. -/
theorem not_mem_stamped (now : Moment) (s : Standings) {r : Ratings} (ha : isFinite r.a = true)
    (hb : isFinite r.b = true) {c : Char} (hdigit : c.isDigit = false) (hstamp : c ∉ stampMarks)
    (hline : c ∉ lineMarks) : c ∉ (now.stamp ++ " " ++ finalLine s r).toList := by
  have hfinal : DigitsAnd lineMarks (finalLine s r).toList := by
    have hratings : DigitsAnd lineMarks ([' ', 'a'] ++ ratingsTail (plain r.a).toList
        (plain r.b).toList) :=
      digitsAnd_append.2 ⟨by decide, (digitsAnd_ratingsTail ha hb).mono (by decide)⟩
    rw [finalLine_toList, digitsAnd_append, digitsAnd_append]
    exact ⟨by decide, digitsAnd_counts s, hratings⟩
  rw [String.toList_append, String.toList_append, List.mem_append, List.mem_append, not_or, not_or]
  refine ⟨⟨(digitsAnd_stamp now).not_mem hdigit hstamp, ?_⟩, hfinal.not_mem hdigit hline⟩
  exact (by decide : DigitsAnd lineMarks [' ']).not_mem hdigit hline

end EngineDuel.Report

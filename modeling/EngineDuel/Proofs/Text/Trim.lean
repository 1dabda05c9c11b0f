import EngineDuel.Text.Blank
import Mathlib.Data.List.DropRight

/-!
# Texts without the blanks at their ends

What `trim` leaves: nothing of a blank text (`trim_eq_nil_iff`), and otherwise a text whose last
character is not blank (`not_isBlank_of_getLast?_trim`).
-/

namespace EngineDuel.Text

theorem trim_cons_of_blank {c : Char} (h : isBlank c = true) (s : List Char) :
    trim (c :: s) = trim s := by
  unfold trim trimStart
  rw [List.dropWhile_cons_of_pos h]

theorem dropWhile_isBlank_eq_self {s : List Char} (h : ∀ c ∈ s.head?, isBlank c = false) :
    s.dropWhile isBlank = s := by
  cases s with
  | nil => rfl
  | cons c rest =>
    rw [List.dropWhile_cons_of_neg]
    rw [h c rfl]
    exact Bool.false_ne_true

/-- A text that does not end with a blank keeps its end. -/
theorem trimEnd_eq_self {s : List Char} (h : ∀ c ∈ s.getLast?, isBlank c = false) :
    trimEnd s = s := by
  unfold trimEnd
  rw [dropWhile_isBlank_eq_self, List.reverse_reverse]
  rwa [List.head?_reverse]

/-- A text without blanks at its ends stays as it is. -/
theorem trim_eq_self {s : List Char} (hfirst : ∀ c ∈ s.head?, isBlank c = false)
    (hlast : ∀ c ∈ s.getLast?, isBlank c = false) : trim s = s := by
  unfold trim trimStart
  rw [dropWhile_isBlank_eq_self hfirst, trimEnd_eq_self hlast]

theorem trimEnd_eq_nil_iff {s : List Char} : trimEnd s = [] ↔ ∀ c ∈ s, isBlank c = true := by
  unfold trimEnd
  rw [List.reverse_eq_nil_iff, List.dropWhile_eq_nil_iff]
  simp only [List.mem_reverse]

theorem trim_eq_nil_iff {s : List Char} : trim s = [] ↔ ∀ c ∈ s, isBlank c = true := by
  unfold trim trimStart
  rw [trimEnd_eq_nil_iff, ← List.dropWhile_eq_nil_iff, List.dropWhile_idempotent,
    List.dropWhile_eq_nil_iff]

/-- A first character stays, unless it and everything after it is blank. -/
theorem trimEnd_cons {c : Char} {s : List Char} (h : isBlank c = false ∨ trimEnd s ≠ []) :
    trimEnd (c :: s) = c :: trimEnd s := by
  have hnil : s.reverse.dropWhile isBlank = [] ↔ trimEnd s = [] := List.reverse_eq_nil_iff.symm
  unfold trimEnd
  rw [List.reverse_cons, List.dropWhile_append]
  by_cases hblank : trimEnd s = []
  · have hc := h.resolve_right (not_not.mpr hblank)
    rw [if_pos (List.isEmpty_iff.mpr (hnil.mpr hblank)), hnil.mpr hblank,
      List.dropWhile_cons_of_neg (by simp [hc])]
    rfl
  · rw [if_neg (fun hempty => hblank (hnil.mp (List.isEmpty_iff.mp hempty))), List.reverse_append,
      List.reverse_singleton, List.singleton_append]

/-- What stands before a character that is not blank stays. -/
theorem trimEnd_append_cons {c : Char} (h : isBlank c = false) (s more : List Char) :
    trimEnd (s ++ c :: more) = s ++ c :: trimEnd more := by
  induction s with
  | nil => exact trimEnd_cons (.inl h)
  | cons d s ih =>
    rw [List.cons_append, trimEnd_cons (.inr (by simp [ih])), ih]
    rfl

/-- A text that does not begin with a blank only loses blanks at its end. -/
theorem trim_cons {c : Char} (h : isBlank c = false) (s : List Char) :
    trim (c :: s) = c :: trimEnd s := by
  have hstart : trimStart (c :: s) = c :: s := dropWhile_isBlank_eq_self (by simpa using h)
  rw [trim, hstart, trimEnd_cons (.inl h)]

/-- A text that does not begin with a blank begins as before. -/
theorem head?_trim_cons {c : Char} (h : isBlank c = false) (s : List Char) :
    (trim (c :: s)).head? = some c := by
  rw [trim_cons h]
  rfl

theorem trimEnd_trimEnd (s : List Char) : trimEnd (trimEnd s) = trimEnd s := by
  unfold trimEnd
  rw [List.reverse_reverse, List.dropWhile_idempotent]

/-- Blanks at the end may go first. -/
theorem trim_trimEnd (s : List Char) : trim (trimEnd s) = trim s := by
  induction s with
  | nil => rfl
  | cons c s ih =>
    by_cases hc : isBlank c = true
    · rw [trim_cons_of_blank hc]
      by_cases hnil : trimEnd s = []
      · have hall : trimEnd (c :: s) = [] :=
          trimEnd_eq_nil_iff.mpr (List.forall_mem_cons.mpr ⟨hc, trimEnd_eq_nil_iff.mp hnil⟩)
        rw [hall, trim_eq_nil_iff.mpr (trimEnd_eq_nil_iff.mp hnil)]
        rfl
      · rw [trimEnd_cons (.inr hnil), trim_cons_of_blank hc, ih]
    · have hc := Bool.eq_false_iff.mpr hc
      rw [trimEnd_cons (.inl hc), trim_cons hc, trim_cons hc, trimEnd_trimEnd]

/-- One more blank at the end makes no difference. -/
theorem trim_append_blank {c : Char} (h : isBlank c = true) (s : List Char) :
    trim (s ++ [c]) = trim s := by
  have hend : trimEnd (s ++ [c]) = trimEnd s := by
    unfold trimEnd
    rw [List.reverse_append, List.reverse_singleton, List.singleton_append,
      List.dropWhile_cons_of_pos h]
  rw [← trim_trimEnd, hend, trim_trimEnd]

theorem trimEnd_subset (s : List Char) : trimEnd s ⊆ s := by
  intro c hc
  rw [trimEnd, List.mem_reverse] at hc
  exact List.mem_reverse.mp ((List.dropWhile_suffix isBlank).subset hc)

/-- What is left was there before. -/
theorem trim_subset (s : List Char) : trim s ⊆ s :=
  fun _ hc => (List.dropWhile_suffix isBlank).subset (trimEnd_subset _ hc)

/-- The last character of a trimmed text is not blank. -/
theorem not_isBlank_of_getLast?_trim {s : List Char} {c : Char} (h : (trim s).getLast? = some c) :
    isBlank c = false := by
  unfold trim trimEnd at h
  rw [List.getLast?_reverse] at h
  have hhead := List.head?_dropWhile_not isBlank (trimStart s).reverse
  rw [h] at hhead
  simpa using hhead

/-- What follows the first character of a trimmed text is not blank. -/
theorem trim_tail_ne_nil {s rest : List Char} {c : Char} (h : trim s = c :: rest)
    (hrest : rest ≠ []) : trim rest ≠ [] := by
  intro hnil
  have hlast : (trim s).getLast? = some (rest.getLast hrest) := by
    rw [h, List.getLast?_cons, List.getLast?_eq_some_getLast hrest]
    rfl
  have := not_isBlank_of_getLast?_trim hlast
  rw [trim_eq_nil_iff.mp hnil _ (List.getLast_mem hrest)] at this
  cases this

end EngineDuel.Text

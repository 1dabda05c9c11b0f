import EngineDuel.Proofs.Number.Order
import EngineDuel.Tuning.Range
import Mathlib.Data.List.Chain

/-!
# The values of a search

A range that can be searched has a finite start and a finite step above zero, so none of its values
is a NaN, and a value is only taken if it exceeds the one before it. Hence the start and the values
after it are strictly ascending, and no two of them are the same.
-/

namespace EngineDuel.Tuning.Range

variable {r : Range}

/-- What holds of a range that can be searched. -/
theorem of_validate (h : r.validate = .ok ()) :
    r.start.isFinite = true ∧ r.step.isFinite = true ∧ ¬r.step ≤ 0.0 := by
  unfold validate at h
  split_ifs at h with hfinite hstep
  rw [Bool.not_eq_true', Bool.not_eq_false, Bool.and_eq_true, Bool.and_eq_true] at hfinite
  exact ⟨hfinite.1.1, hfinite.1.2, hstep⟩

theorem validate_of_isOk (h : r.validate.isOk = true) : r.validate = .ok () := by
  cases hv : r.validate with
  | error e =>
    rw [hv] at h
    cases h
  | ok _ => rfl

theorem isNumber_value (h : r.validate = .ok ()) (k : ℕ) : Number.IsNumber (r.value k) := by
  obtain ⟨hstart, hfinite, hstep⟩ := of_validate h
  have hpos : Number.pattern r.step ≠ 0 := by
    intro hzero
    have hrank : Number.rank r.step = 0 := by
      rw [Number.rank, hzero]
      cases Number.sign r.step <;> rfl
    refine hstep (Number.le_iff.2 ⟨?_, by decide, ?_⟩)
    · exact (Number.isFinite_iff.1 hfinite).le
    · rw [hrank]
      decide
  exact Number.isNumber_add hstart (Number.isNumber_mul (Number.isNumber_ofNat k) hfinite hpos)

/-- The values from a number on ascend from the last one. -/
theorem candidatesFrom_eq (h : r.validate = .ok ()) (left k : ℕ) {last : Float}
    (hlast : Number.IsNumber last) (found : List Float) :
    ∃ new, r.candidatesFrom left k last found = new.reverse ++ found ∧
      (last :: new).IsChain (· < ·) := by
  induction left generalizing k last found with
  | zero => exact ⟨[], rfl, .singleton _⟩
  | succ left ih =>
    rw [candidatesFrom]
    split
    · exact ⟨[], rfl, .singleton _⟩
    · next hnext =>
      rw [Bool.or_eq_true, decide_eq_true_iff, decide_eq_true_iff, not_or] at hnext
      have hvalue := isNumber_value h k
      obtain ⟨new, heq, hchain⟩ := ih (k + 1) hvalue (r.value k :: found)
      refine ⟨r.value k :: new, ?_, .cons_cons (Number.lt_of_not_le hvalue hlast hnext.2) hchain⟩
      rw [heq, List.reverse_cons, List.append_assoc, List.singleton_append]

/-- **The start and the values after it ascend.** -/
theorem pairwise_candidates (h : r.validate = .ok ()) :
    (r.start :: r.candidates).Pairwise (· < ·) := by
  have hstart : Number.IsNumber r.start := (Number.isFinite_iff.1 (of_validate h).1).le
  obtain ⟨new, heq, hchain⟩ := candidatesFrom_eq h maxCandidates 1 hstart []
  rw [candidates, heq, List.append_nil, List.reverse_reverse]
  have : IsTrans Float (· < ·) := ⟨fun _ _ _ => Number.lt_trans_of_lt⟩
  exact List.isChain_iff_pairwise.1 hchain

/-- Each of them is a number. -/
theorem isNumber_of_mem (h : r.validate = .ok ()) {v : Float} (hv : v ∈ r.start :: r.candidates) :
    Number.IsNumber v := by
  rcases List.mem_cons.1 hv with rfl | hv
  · exact (Number.isFinite_iff.1 (of_validate h).1).le
  · exact (Number.lt_iff.1 ((List.pairwise_cons.1 (pairwise_candidates h)).1 v hv)).2.1

theorem nodup_candidates (h : r.validate = .ok ()) : (r.start :: r.candidates).Nodup := by
  refine (pairwise_candidates h).imp ?_
  rintro v _ hlt rfl
  exact lt_irrefl _ (Number.lt_iff.1 hlt).2.2

end EngineDuel.Tuning.Range

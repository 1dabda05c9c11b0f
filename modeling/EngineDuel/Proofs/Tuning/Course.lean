import EngineDuel.Proofs.Tuning.Calls
import EngineDuel.Proofs.Tuning.Candidates

/-!
# The course of a search

1. What a step of the loop does is one of four things (`Course`): there is no value left, the value
   cannot be built, its race fails, or it has raced and the rest goes on after it.
2. In every race both engines have the value, the file and the rating that the calls before it
   account for (`Fair`). The loop keeps the best value, its file and the table; what it keeps is a
   function of the calls so far (`climbFrom_takes`).
-/

namespace EngineDuel.Tuning

/-- Two engines that race after the calls of `past`, as those calls account for them. -/
structure Fair (start : Float) (past : List Call) (baseline target : Contestant) : Prop where
  /-- The first engine has the value that won last. -/
  baseline_eq : baseline.value = champion start past
  /-- It is the file that was built for this value. -/
  baseline_built : .build baseline.value (.ok baseline.path) ∈ past
  /-- Its rating was reported last for this value. -/
  baseline_rating : baseline.rating = (lastRating? past baseline.value).getD 1000.0
  /-- The table holds this rating. -/
  baseline_known : (tableOf start past).get? baseline.value.toBits = some baseline.rating
  /-- The second engine has just been built. -/
  target_built : past.getLast? = some (.build target.value (.ok target.path))
  /-- It starts with the rating of the first. -/
  target_rating : target.rating = baseline.rating
  /-- The table does not know its value. -/
  target_unknown : (tableOf start past).get? target.value.toBits = none

/-- **The courses of a search** after the calls of `past`: the values that are left, the further
calls and the result. -/
inductive Course (start : Float) :
    List Call → List Float → List Call → Except Failure Finding → Prop
  /-- No value is left. -/
  | finished {past : List Call} :
      Course start past [] [] (.ok ⟨champion start past, tableOf start past⟩)
  /-- No engine can be built for a value. -/
  | unbuilt {past : List Call} {value : Float} {rest : List Float} (e : Failure) :
      Course start past (value :: rest) [.build value (.error e)]
        (.error (e.within (candidateContext value)))
  /-- A race fails. -/
  | unraced {past : List Call} {value : Float} {rest : List Float} {path : String}
      {baseline target : Contestant} (hvalue : target.value = value)
      (hfair : Fair start (past ++ [.build value (.ok path)]) baseline target) (e : Failure) :
      Course start past (value :: rest)
        [.build value (.ok path), .race baseline target (.error e)]
        (.error (e.within (raceContext baseline.value value)))
  /-- A value has raced. -/
  | raced {past : List Call} {value : Float} {rest : List Float} {path : String}
      {baseline target : Contestant} {outcome : RaceOutcome} {calls : List Call}
      {result : Except Failure Finding} (hvalue : target.value = value)
      (hfair : Fair start (past ++ [.build value (.ok path)]) baseline target)
      (hrest : Course start
        (past ++ [Call.build value (.ok path)] ++ [Call.race baseline target (.ok outcome)])
        rest calls result) :
      Course start past (value :: rest)
        (.build value (.ok path) :: .race baseline target (.ok outcome) :: calls) result

/-! ## The loop -/

variable {start value : Float} {past : List Call}

/-- A build brings nothing but a file. -/
theorem tableOf_build (result : Except Failure String) :
    tableOf start (past ++ [.build value result]) = tableOf start past := by
  rw [tableOf_append]
  rfl

theorem champion_build (result : Except Failure String) :
    champion start (past ++ [.build value result]) = champion start past := by
  rw [champion_append]
  rfl

theorem lastRating?_build (result : Except Failure String) (v : Float) :
    lastRating? (past ++ [.build value result]) v = lastRating? past v := by
  rw [lastRating?_append]
  rfl

/-- What the table tells is the last rating, or else the one that every value starts with. -/
theorem lastRating?_getD {v r : Float} (h : (tableOf start past).get? v.toBits = some r) :
    (lastRating? past v).getD defaultRating = r := by
  rw [get?_tableOf] at h
  cases hlast : lastRating? past v with
  | some r' =>
    rw [hlast, Option.some_or, Option.some.injEq] at h
    exact h
  | none =>
    rw [hlast, Option.none_or] at h
    split_ifs at h
    exact Option.some.inj h

/-- The engines that the loop lets race are accounted for. -/
theorem fair_of_loop {best : Contestant} (path : String) (hbest : best.value = champion start past)
    (hbuilt : .build best.value (.ok best.path) ∈ past)
    (hfresh : (tableOf start past).get? value.toBits = none) :
    let best' : Contestant :=
      { best with rating := ((tableOf start past).get? best.value.toBits).getD defaultRating }
    Fair start (past ++ [.build value (.ok path)]) best'
      { value, path, rating := ((tableOf start past).get? value.toBits).getD best'.rating } := by
  intro best'
  obtain ⟨r, hr⟩ := Option.isSome_iff_exists.1 (isSome_get?_champion start past)
  rw [← hbest] at hr
  have hrating : best'.rating = r := by
    show ((tableOf start past).get? best.value.toBits).getD defaultRating = r
    rw [hr, Option.getD_some]
  refine ⟨?_, List.mem_append_left _ hbuilt, ?_, ?_, List.getLast?_concat, ?_, ?_⟩
  · rw [champion_build]
    exact hbest
  · rw [lastRating?_build, hrating]
    exact (lastRating?_getD hr).symm
  · rw [tableOf_build, hrating]
    exact hr
  · show ((tableOf start past).get? value.toBits).getD best'.rating = best'.rating
    rw [hfresh, Option.getD_none]
  · rw [tableOf_build]
    exact hfresh

/-- A race changes nothing about values that take no part in it. -/
theorem get?_race {baseline target : Contestant} {v : Float} (result : Except Failure RaceOutcome)
    (hbaseline : v ≠ baseline.value) (htarget : v ≠ target.value) :
    (tableOf start (past ++ [.race baseline target result])).get? v.toBits =
      (tableOf start past).get? v.toBits := by
  rw [tableOf_append, get?_record]
  cases result with
  | error e => rfl
  | ok outcome => rw [Call.rating?, if_neg htarget, if_neg hbaseline, Option.none_or]

/-- A value that the table does not know and that does not race stays unknown. -/
theorem fresh_race {baseline target : Contestant} {path : String} {v : Float}
    (result : Except Failure RaceOutcome)
    (hfair : Fair start (past ++ [.build value (.ok path)]) baseline target)
    (hv : (tableOf start past).get? v.toBits = none) (htarget : v ≠ target.value) :
    (tableOf start (past ++ [Call.build value (.ok path)] ++
      [Call.race baseline target result])).get? v.toBits = none := by
  have hbaseline : v ≠ baseline.value := by
    rintro rfl
    have hknown := hfair.baseline_known
    rw [tableOf_build, hv] at hknown
    cases hknown
  rw [get?_race result hbaseline htarget, tableOf_build, hv]

variable {σ : Type}

/-- Whether a watched step takes a course after the calls of `past`. -/
def Takes (start : Float) (past : List Call) (rest : List Float)
    (s : Step (σ × List Call) Failure Finding) : Prop :=
  ∃ new, s.state.2 = past ++ new ∧ Course start past rest new s.result

theorem Takes.withLog {rest : List Float} {s : Step (σ × List Call) Failure Finding}
    (h : Takes start past rest s) (log : List LogLine) : Takes start past rest (withLog log s) := h

/-- A course goes on after a race. -/
theorem Takes.raced {rest : List Float} {path : String} {baseline target : Contestant}
    {s : Step (σ × List Call) Failure Finding} (outcome : RaceOutcome)
    (hvalue : target.value = value)
    (hfair : Fair start (past ++ [.build value (.ok path)]) baseline target)
    (h : Takes start
      (past ++ [Call.build value (.ok path)] ++ [Call.race baseline target (.ok outcome)])
      rest s) : Takes start past (value :: rest) s := by
  obtain ⟨new, hcalls, hcourse⟩ := h
  refine ⟨.build value (.ok path) :: .race baseline target (.ok outcome) :: new, ?_,
    .raced hvalue hfair hcourse⟩
  rw [hcalls]
  simp only [List.append_assoc, List.cons_append, List.nil_append]

/-- **The loop takes such a course** from any state that the calls so far account for. -/
theorem climbFrom_takes (w : Workshop σ) {rest : List Float} (total number : ℕ)
    (best : Contestant) (hbest : best.value = champion start past)
    (hbuilt : .build best.value (.ok best.path) ∈ past)
    (hfresh : ∀ v ∈ rest, (tableOf start past).get? v.toBits = none) (hnodup : rest.Nodup) (s : σ) :
    Takes start past rest
      (climbFrom w.watched total number rest best (tableOf start past) (s, past)) := by
  induction rest generalizing number best past s with
  | nil =>
    refine ⟨[], (List.append_nil _).symm, ?_⟩
    rw [climbFrom, hbest]
    exact .finished
  | cons value rest ih =>
    simp only [climbFrom, Workshop.watched_build, Workshop.watched_race]
    generalize w.build s value = built
    obtain ⟨e | path, s', log⟩ := built
    · exact ⟨[.build value (.error e)], rfl, .unbuilt e⟩
    have hfair := fair_of_loop path hbest hbuilt (hfresh value (List.mem_cons_self ..))
    dsimp only at hfair ⊢
    generalize hbest' : Contestant.mk best.value best.path
      (((tableOf start past).get? best.value.toBits).getD defaultRating) = best' at hfair ⊢
    generalize htarget : Contestant.mk value path _ = target at hfair ⊢
    have hvalue : target.value = value := by rw [← htarget]
    have hbaseline : best'.value = best.value := by rw [← hbest']
    generalize w.race s' best' target = raced
    obtain ⟨e | outcome, s'', log'⟩ := raced
    · rw [← hbaseline]
      exact ⟨[.build value (.ok path), .race best' target (.error e)], List.append_assoc _ _ _,
        .unraced hvalue hfair e⟩
    obtain ⟨hvalue', hnodup'⟩ := List.nodup_cons.1 hnodup
    have hfresh' (v : Float) (hv : v ∈ rest) := fresh_race (.ok outcome) hfair
      (hfresh v (List.mem_cons_of_mem _ hv)) (fun heq => hvalue' (hvalue ▸ heq ▸ hv))
    have htable : Table.set value.toBits outcome.targetElo
        (Table.set best.value.toBits outcome.baselineElo (tableOf start past)) =
          tableOf start (past ++ [Call.build value (.ok path)] ++
            [Call.race best' target (.ok outcome)]) := by
      rw [tableOf_append, tableOf_build, ← hvalue, ← hbaseline]
      rfl
    dsimp only
    rw [htable]
    refine Takes.raced outcome hvalue hfair ((Takes.withLog ?_ _).withLog log)
    split_ifs with hwin
    · refine (ih _ ⟨value, path, outcome.targetElo⟩ ?_ ?_ hfresh' hnodup' s'').withLog _
      · rw [champion_append, Call.winner?, if_pos hwin, Option.getD_some, hvalue]
      · exact List.mem_append_left _ (List.mem_append_right _ (List.mem_singleton_self _))
    · refine ih _ ⟨best.value, best.path, outcome.baselineElo⟩ ?_ ?_ hfresh' hnodup' s''
      · rw [champion_append, Call.winner?, if_neg hwin, Option.getD_none, champion_build]
        exact hbest
      · exact List.mem_append_left _ (List.mem_append_left _ hbuilt)

/-- **The course of a search.** The start is built first; if it cannot be built that is all. -/
theorem climb_course (w : Workshop σ) {range : Range} (h : range.validate = .ok ()) (s : σ) :
    (∃ e, callsOf w range s = [.build range.start (.error e)] ∧
        (climb w range s).result = .error (e.within (baselineContext range.start))) ∨
      ∃ path calls, callsOf w range s = .build range.start (.ok path) :: calls ∧
        Course range.start [.build range.start (.ok path)] range.candidates calls
          (climb w range s).result := by
  have hdistinct := List.nodup_cons.1 (Range.nodup_candidates h)
  have hresult : (climb w range s).result = (climb w.watched range (s, [])).result := by
    rw [← climb_watched w range s []]
    rfl
  rw [hresult, callsOf]
  simp only [climb, h, Workshop.watched_build]
  generalize w.build s range.start = built
  obtain ⟨e | path, s', log⟩ := built
  · exact .inl ⟨e, rfl, rfl⟩
  · refine .inr ⟨path, ?_⟩
    have hfresh (v : Float) (hv : v ∈ range.candidates) :
        (tableOf range.start [.build range.start (.ok path)]).get? v.toBits = none := by
      have hne : v ≠ range.start := fun heq => hdistinct.1 (heq ▸ hv)
      rw [get?_tableOf, if_neg hne]
      rfl
    exact climbFrom_takes w range.candidates.length 1 ⟨range.start, path, defaultRating⟩ rfl
      (List.mem_singleton_self _) hfresh hdistinct.2 s'

end EngineDuel.Tuning

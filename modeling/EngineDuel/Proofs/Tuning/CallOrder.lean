import EngineDuel.Proofs.Tuning.Course
import Mathlib.Data.List.Nodup

/-!
# The order of calls

What a search calls for is planned by its range: the start is built, then each value is built and
races. A search calls for a first part of this plan, stops at the first call that fails and tells
its failure with what was called for, and lets only engines race that the calls before account for
(`Orderly`, `calls_orderly`). The properties are read off the course of the search one by one, by
induction on it. So each engine that plays has been built for its value (`built_of_mem_players`).
-/

namespace EngineDuel.Tuning

/-- What a call is for. -/
inductive Errand where
  | build (value : Float)
  | race (target : Float)
  deriving DecidableEq

/-- Whether engines are to play. -/
def Errand.isRace : Errand → Bool
  | .build _ => false
  | .race _ => true

/-- What a call is for. -/
def Call.errand : Call → Errand
  | .build value _ => .build value
  | .race _ target _ => .race target.value

/-- Whether a call lets engines play. -/
def Call.isRace (call : Call) : Bool := call.errand.isRace

/-- What the failure of a call is told with, after other calls. -/
def Call.context (before : List Call) : Call → String
  | .build value _ => if before.isEmpty then baselineContext value else candidateContext value
  | .race baseline target _ => raceContext baseline.value target.value

/-- What is called for after the start: each value is built and races. -/
def errands (values : List Float) : List Errand := values.flatMap fun v => [.build v, .race v]

/-- What a search of a range calls for if no call fails. -/
def Range.plan (r : Range) : List Errand := .build r.start :: errands r.candidates

/-- The calls of a search are in order, and its result is theirs. -/
structure Orderly (range : Range) (calls : List Call) (result : Except Failure Finding) :
    Prop where
  /-- The calls are those that the plan begins with. -/
  planned : calls.map Call.errand <+: range.plan
  /-- None is made twice. -/
  once : (calls.map Call.errand).Nodup
  /-- A call that fails is the last one, and its failure is the result. -/
  stops : ∀ before call after, calls = before ++ call :: after → ∀ e, call.failure? = some e →
    after = [] ∧ result = .error (e.within (call.context before))
  /-- A value that cannot be built comes after the races of all values before it. -/
  unbuilt : ∀ before e after i (hi : i < range.candidates.length),
    calls = before ++ .build range.candidates[i] (.error e) :: after →
      before.countP Call.isRace = i
  /-- If no call fails, all are made, and the search finds something. -/
  finishes : (∀ call ∈ calls, call.failure? = none) →
    calls.map Call.errand = range.plan ∧ ∃ finding, result = .ok finding
  /-- The engines of a race are as the calls before it account for. -/
  fair : ∀ before baseline target outcome after,
    calls = before ++ .race baseline target outcome :: after →
      Fair range.start before baseline target

/-! ## Along a course -/

section Course

variable {start : Float} {past calls : List Call} {values : List Float}
  {result : Except Failure Finding}

/-- What holds wherever a list is split holds at its head and wherever its tail is split. -/
theorem forall_split_cons {τ : Type} {p : List τ → τ → List τ → Prop} {a : τ} {l : List τ} :
    (∀ before b after, a :: l = before ++ b :: after → p before b after) ↔
      p [] a l ∧ ∀ before b after, l = before ++ b :: after → p (a :: before) b after := by
  constructor
  · intro h
    exact ⟨h [] a l rfl, fun before b after hl => h (a :: before) b after (congrArg _ hl)⟩
  · rintro ⟨hhead, htail⟩ before b after hl
    rcases List.cons_eq_append_iff.1 hl with ⟨rfl, heq⟩ | ⟨before', rfl, heq⟩
    · cases heq
      exact hhead
    · exact htail before' b after heq

theorem forall_split_nil {τ : Type} {p : List τ → τ → List τ → Prop} :
    ∀ before b after, [] = before ++ b :: after → p before b after :=
  fun _ _ _ h => absurd h (by simp)

theorem errands_cons (value : Float) (values : List Float) :
    errands (value :: values) = .build value :: .race value :: errands values := rfl

theorem Course.planned (h : Course start past values calls result) :
    calls.map Call.errand <+: errands values := by
  induction h with
  | finished => exact List.prefix_refl _
  | unbuilt e => exact ⟨_, rfl⟩
  | unraced hvalue hfair e =>
    subst hvalue
    exact ⟨_, rfl⟩
  | raced hvalue hfair hrest ih =>
    subst hvalue
    exact (List.prefix_cons_inj _).2 ((List.prefix_cons_inj _).2 ih)

theorem Course.stops (h : Course start past values calls result) (hpast : past ≠ []) :
    ∀ before call after, calls = before ++ call :: after → ∀ e, call.failure? = some e →
      after = [] ∧ result = .error (e.within (call.context (past ++ before))) := by
  induction h with
  | finished => exact forall_split_nil
  | unbuilt e' =>
    refine forall_split_cons.2 ⟨?_, forall_split_nil⟩
    rintro _ ⟨⟩
    rw [List.append_nil, Call.context, if_neg (mt List.isEmpty_iff.1 hpast)]
    exact ⟨rfl, rfl⟩
  | unraced hvalue hfair e' =>
    refine forall_split_cons.2 ⟨nofun, forall_split_cons.2 ⟨?_, forall_split_nil⟩⟩
    rintro _ ⟨⟩
    rw [Call.context, hvalue]
    exact ⟨rfl, rfl⟩
  | raced hvalue hfair hrest ih =>
    refine forall_split_cons.2 ⟨nofun, forall_split_cons.2 ⟨nofun, ?_⟩⟩
    intro before call after hcalls
    have := ih (by simp) before call after hcalls
    simpa using this

theorem Course.finishes (h : Course start past values calls result)
    (hok : ∀ call ∈ calls, call.failure? = none) :
    calls.map Call.errand = errands values ∧
      result = .ok ⟨champion start (past ++ calls), tableOf start (past ++ calls)⟩ := by
  induction h with
  | finished =>
    rw [List.append_nil]
    exact ⟨rfl, rfl⟩
  | unbuilt e' => cases hok _ (List.mem_cons_self ..)
  | unraced hvalue hfair e' => cases hok _ (List.mem_cons_of_mem _ (List.mem_cons_self ..))
  | raced hvalue hfair hrest ih =>
    obtain ⟨hall, hresult⟩ :=
      ih fun call hcall => hok call (List.mem_cons_of_mem _ (List.mem_cons_of_mem _ hcall))
    rw [errands_cons, ← hall, hresult, ← hvalue, List.append_assoc, List.append_assoc]
    exact ⟨rfl, rfl⟩

theorem Course.fair (h : Course start past values calls result) :
    ∀ before call after, calls = before ++ call :: after →
      ∀ baseline target outcome, call = .race baseline target outcome →
        Fair start (past ++ before) baseline target := by
  induction h with
  | finished => exact forall_split_nil
  | unbuilt e' => exact forall_split_cons.2 ⟨nofun, forall_split_nil⟩
  | unraced hvalue hfair e' =>
    refine forall_split_cons.2 ⟨nofun, forall_split_cons.2 ⟨?_, forall_split_nil⟩⟩
    rintro _ _ _ ⟨⟩
    exact hfair
  | raced hvalue hfair hrest ih =>
    refine forall_split_cons.2 ⟨nofun, forall_split_cons.2 ⟨?_, ?_⟩⟩
    · rintro _ _ _ ⟨⟩
      exact hfair
    · intro before call after hcalls
      have := ih before call after hcalls
      simpa using this

end Course

/-! ## The plan -/

section Plan

variable {range : Range} {values : List Float}

theorem build_mem_errands {v : Float} : .build v ∈ errands values ↔ v ∈ values := by
  simp [errands]

theorem race_mem_errands {v : Float} : .race v ∈ errands values ↔ v ∈ values := by
  simp [errands]

theorem nodup_errands (h : values.Nodup) : (errands values).Nodup := by
  induction values with
  | nil => exact List.nodup_nil
  | cons v values ih =>
    obtain ⟨hv, hvalues⟩ := List.nodup_cons.1 h
    rw [errands_cons, List.nodup_cons, List.nodup_cons, List.mem_cons, not_or, build_mem_errands,
      race_mem_errands]
    exact ⟨⟨nofun, hv⟩, hv, ih hvalues⟩

theorem nodup_plan (h : range.validate = .ok ()) : range.plan.Nodup := by
  obtain ⟨hstart, hcandidates⟩ := List.nodup_cons.1 (Range.nodup_candidates h)
  rw [Range.plan, List.nodup_cons, build_mem_errands]
  exact ⟨hstart, nodup_errands hcandidates⟩

/-- What is called for before a value is built is what is called for by the values before it. -/
theorem split_errands {before after : List Errand} {value : Float}
    (h : errands values = before ++ .build value :: after) :
    ∃ done left, values = done ++ value :: left ∧ before = errands done := by
  induction values generalizing before with
  | nil => exact absurd h (by simp [errands])
  | cons v values ih =>
    rw [errands_cons] at h
    rcases List.cons_eq_append_iff.1 h with ⟨rfl, heq⟩ | ⟨before', rfl, heq⟩
    · cases heq
      exact ⟨[], values, rfl, rfl⟩
    · rcases List.cons_eq_append_iff.1 heq with ⟨rfl, heq'⟩ | ⟨before'', rfl, heq'⟩
      · cases heq'
      · obtain ⟨done, left, rfl, rfl⟩ := ih heq'
        exact ⟨v :: done, left, rfl, rfl⟩

theorem countP_isRace {calls : List Call} :
    calls.countP Call.isRace = (calls.map Call.errand).countP Errand.isRace := by
  rw [List.countP_map]
  rfl

/-- As many races are called for as there are values. -/
theorem countP_errands : (errands values).countP Errand.isRace = values.length := by
  induction values with
  | nil => rfl
  | cons v values ih =>
    rw [errands_cons, List.countP_cons, List.countP_cons, ih]
    rfl

/-- A value is built after the races of all values before it. -/
theorem countP_isRace_of_build {before after : List Call} {i : ℕ} (h : range.validate = .ok ())
    (hi : i < range.candidates.length) {result : Except Failure String}
    (hplanned : (before ++ .build range.candidates[i] result :: after).map Call.errand <+:
      range.plan) :
    before.countP Call.isRace = i := by
  obtain ⟨hstart, hcandidates⟩ := List.nodup_cons.1 (Range.nodup_candidates h)
  obtain ⟨rest, hrest⟩ := hplanned
  rw [List.map_append, List.map_cons, List.append_assoc, List.cons_append, Range.plan] at hrest
  rw [countP_isRace]
  rcases List.cons_eq_append_iff.1 hrest.symm with ⟨-, heq⟩ | ⟨before', hbefore, heq⟩
  · have hsame : range.candidates[i] = range.start := (Errand.build.inj (List.cons.inj heq).1)
    exact absurd (hsame ▸ List.getElem_mem hi) hstart
  · obtain ⟨done, left, hvalues, hdone⟩ := split_errands heq
    have hlength : done.length < range.candidates.length := by
      rw [hvalues, List.length_append, List.length_cons]
      omega
    have hget : range.candidates[done.length] = range.candidates[i] :=
      List.getElem_of_append hvalues rfl
    rw [hbefore, List.countP_cons, hdone, countP_errands]
    exact hcandidates.getElem_inj_iff.1 hget

end Plan

/-! ## A search -/

section Search

variable {σ : Type} {range : Range}

theorem callsOf_planned (w : Workshop σ) (s : σ) (h : range.validate = .ok ()) :
    (callsOf w range s).map Call.errand <+: range.plan := by
  obtain ⟨e, hcalls, -⟩ | ⟨path, calls, hcalls, hcourse⟩ := climb_course w h s
  · exact ⟨errands range.candidates, by rw [hcalls]; rfl⟩
  · rw [hcalls]
    exact (List.prefix_cons_inj _).2 hcourse.planned

theorem callsOf_fair (w : Workshop σ) (s : σ) (h : range.validate = .ok ())
    {before after : List Call} {baseline target : Contestant} {outcome : Except Failure RaceOutcome}
    (hcalls : callsOf w range s = before ++ .race baseline target outcome :: after) :
    Fair range.start before baseline target := by
  obtain ⟨e, hcalls', -⟩ | ⟨path, calls, hcalls', hcourse⟩ := climb_course w h s
  · rw [hcalls'] at hcalls
    rcases List.cons_eq_append_iff.1 hcalls with ⟨-, hhead⟩ | ⟨before', -, htail⟩
    · cases hhead
    · exact absurd htail (by simp)
  · rw [hcalls'] at hcalls
    rcases List.cons_eq_append_iff.1 hcalls with ⟨-, hhead⟩ | ⟨before', rfl, htail⟩
    · cases hhead
    · exact hcourse.fair before' _ after htail _ _ _ rfl

/-- A search of a range that is refused calls for nothing. -/
theorem callsOf_refused (w : Workshop σ) (s : σ) {e : RangeError} (h : range.validate = .error e) :
    callsOf w range s = [] := by
  rw [callsOf, climb, h]

/-- The engines of the matches of a search. -/
def players (calls : List Call) : List Contestant :=
  calls.flatMap fun
    | .build _ _ => []
    | .race baseline target _ => [baseline, target]

theorem mem_players {calls : List Call} {c : Contestant} (h : c ∈ players calls) :
    ∃ before baseline target outcome after,
      calls = before ++ .race baseline target outcome :: after ∧ (c = baseline ∨ c = target) := by
  obtain ⟨call, hcall, hc⟩ := List.mem_flatMap.1 h
  obtain ⟨before, after, rfl⟩ := List.append_of_mem hcall
  cases call with
  | build value result => cases hc
  | race baseline target outcome =>
    exact ⟨before, baseline, target, outcome, after, rfl, by simpa using hc⟩

/-- Each of them has been built, for its value. -/
theorem built_of_mem_players {w : Workshop σ} {s : σ} (h : range.validate = .ok ())
    {c : Contestant} (hc : c ∈ players (callsOf w range s)) :
    .build c.value (.ok c.path) ∈ callsOf w range s := by
  obtain ⟨before, baseline, target, outcome, after, hcalls, hc⟩ := mem_players hc
  have hfair := callsOf_fair w s h hcalls
  have hbuilt : .build c.value (.ok c.path) ∈ before := by
    rcases hc with rfl | rfl
    · exact hfair.baseline_built
    · exact List.mem_of_getLast? hfair.target_built
  rw [hcalls]
  exact List.mem_append_left _ hbuilt

/-- A value that is built is one of the range, and so a number. -/
theorem isNumber_of_built {w : Workshop σ} {s : σ} (h : range.validate = .ok ()) {value : Float}
    {result : Except Failure String}
    (hbuilt : .build value result ∈ callsOf w range s) : Number.IsNumber value := by
  refine Range.isNumber_of_mem h ?_
  have hplan : Errand.build value ∈ range.plan :=
    (callsOf_planned w s h).subset (List.mem_map_of_mem hbuilt)
  rw [Range.plan, List.mem_cons, build_mem_errands] at hplan
  exact List.mem_cons.2 (hplan.imp_left Errand.build.inj)

/-- The calls of a search of two values whose engines can be built. -/
theorem callsOf_two {w : Workshop σ} {u v : Float} {s : σ} {p q : String}
    (hvalid : range.validate = .ok ()) (hstart : range.start = u)
    (hcandidates : range.candidates = [v]) (hfirst : (w.build s u).result = .ok p)
    (hsecond : (w.build (w.build s u).state v).result = .ok q) :
    ∃ baseline target outcome,
      callsOf w range s = [.build u (.ok p), .build v (.ok q), .race baseline target outcome] ∧
        baseline.value = u ∧ baseline.path = p := by
  rw [callsOf, climb, hvalid]
  dsimp only [withLog]
  rw [Workshop.watched_build, hstart, hfirst]
  dsimp only
  rw [hcandidates, climbFrom, Workshop.watched_build, hsecond]
  dsimp only [withLog]
  rw [Workshop.watched_race]
  dsimp only
  split
  · exact ⟨_, _, _, rfl, rfl, rfl⟩
  · split_ifs
    · exact ⟨_, _, _, rfl, rfl, rfl⟩
    · exact ⟨_, _, _, rfl, rfl, rfl⟩

end Search

/-- **The calls of a search are in order**, whatever the workshop does. -/
theorem calls_orderly {σ : Type} (w : Workshop σ) (range : Range) (s : σ)
    (h : range.validate = .ok ()) : Orderly range (callsOf w range s) (climb w range s).result := by
  have hplanned := callsOf_planned w s h
  have hunbuilt : ∀ before e after i (hi : i < range.candidates.length),
      callsOf w range s = before ++ .build range.candidates[i] (.error e) :: after →
        before.countP Call.isRace = i := by
    intro before e after i hi hcalls
    rw [hcalls] at hplanned
    exact countP_isRace_of_build h hi hplanned
  refine ⟨hplanned, hplanned.sublist.nodup (nodup_plan h), ?_, hunbuilt, ?_,
    fun _ _ _ _ _ => callsOf_fair w s h⟩
  all_goals
    obtain ⟨e, hcalls, hresult⟩ | ⟨path, calls, hcalls, hcourse⟩ := climb_course w h s
    all_goals rw [hcalls]
  · rw [hresult]
    refine forall_split_cons.2 ⟨?_, forall_split_nil⟩
    rintro _ ⟨⟩
    exact ⟨rfl, rfl⟩
  · exact forall_split_cons.2 ⟨nofun, hcourse.stops (List.cons_ne_nil _ _)⟩
  · intro hok
    cases hok _ (List.mem_cons_self ..)
  · intro hok
    obtain ⟨hall, hfound⟩ :=
      hcourse.finishes fun call hcall => hok call (List.mem_cons_of_mem _ hcall)
    exact ⟨congrArg (Errand.build range.start :: ·) hall, _, hfound⟩

/-- A workshop that builds two engines, of which the second always wins, and fails to build more. -/
def twoEngines : Workshop ℕ where
  build built _ :=
    if built < 2 then { result := .ok ("engine-" ++ toString built), state := built + 1 }
    else { result := .error (.because "no room"), state := built }
  race built _ _ := { result := .ok ⟨990.0, 1010.0⟩, state := built }

/-- The second of two values after the start cannot be built. -/
theorem calls_orderly_two_engines :
    (⟨0.0, 1.0, 2.0⟩ : Range).validate = .ok () ∧
      (callsOf twoEngines ⟨0.0, 1.0, 2.0⟩ 0).map Call.errand =
        [.build 0.0, .build 1.0, .race 1.0, .build 2.0] ∧
      Orderly ⟨0.0, 1.0, 2.0⟩ (callsOf twoEngines ⟨0.0, 1.0, 2.0⟩ 0)
        (climb twoEngines ⟨0.0, 1.0, 2.0⟩ 0).result := by
  have h : (⟨0.0, 1.0, 2.0⟩ : Range).validate = .ok () :=
    Range.validate_of_isOk (by decide +kernel)
  exact ⟨h, by decide +kernel, calls_orderly twoEngines _ 0 h⟩

end EngineDuel.Tuning

import EngineDuel.Proofs.Tuning.CallOrder

/-!
# What a search finds

If no call fails, a search finds the value that won last, and its table lists the start and every
value after it once, in order, each with the rating that was reported last for it (`Finds`,
`climb_finds`). The values of the table come from the course of the search: a race adds the value
that takes part in it for the first time and no other.
-/

namespace EngineDuel.Tuning

/-- What a search has found after some calls. -/
structure Finds (range : Range) (calls : List Call) (finding : Finding) : Prop where
  /-- The best value is the one that won last, or else the start. -/
  optimal_eq : finding.optimal = champion range.start calls
  /-- The table lists the start and the values after it, each with the rating reported last. -/
  table_eq : finding.table = (range.start :: range.candidates).map fun v =>
    (v.toBits, (lastRating? calls v).getD 1000.0)
  /-- They are listed in ascending order. -/
  ascending : (range.start :: range.candidates).Pairwise (· < ·)
  /-- There is one entry more than there are values after the start. -/
  length_eq : finding.table.length = range.candidates.length + 1
  /-- Without a race, the rating of the start is the one that every engine begins with. -/
  unraced : range.candidates = [] → finding.table = [(range.start.toBits, 1000.0)]
  /-- With races, a rating has been reported for every value. -/
  rated : range.candidates ≠ [] → ∀ v ∈ range.start :: range.candidates,
    (lastRating? calls v).isSome = true

section Course

variable {start value : Float} {past calls : List Call} {values : List Float}
  {result : Except Failure Finding}

/-- A race adds its second value to the table. -/
theorem mem_keys_race {path : String} {baseline target : Contestant} {outcome : RaceOutcome}
    (hvalue : target.value = value)
    (hfair : Fair start (past ++ [.build value (.ok path)]) baseline target) (bits : UInt64) :
    bits ∈ (tableOf start (past ++ [Call.build value (.ok path)] ++
        [Call.race baseline target (.ok outcome)])).keys ↔
      bits = value.toBits ∨ bits ∈ (tableOf start past).keys := by
  have hknown : baseline.value.toBits ∈ (tableOf start past).keys := by
    have hbaseline := hfair.baseline_known
    rw [tableOf_build] at hbaseline
    rw [Table.mem_keys_iff, hbaseline]
    rfl
  rw [tableOf_append, tableOf_build, Call.record, Table.mem_keys_set, Table.mem_keys_set, hvalue]
  constructor
  · rintro (h | rfl | h)
    · exact .inl h
    · exact .inr hknown
    · exact .inr h
  · rintro (h | h)
    · exact .inl h
    · exact .inr (.inr h)

/-- The table at the end of a course without failures. -/
theorem Course.mem_keys (h : Course start past values calls result)
    (hok : ∀ call ∈ calls, call.failure? = none) (bits : UInt64) :
    bits ∈ (tableOf start (past ++ calls)).keys ↔
      bits ∈ (tableOf start past).keys ∨ bits ∈ values.map Float.toBits := by
  induction h with
  | finished => simp
  | unbuilt e => cases hok _ (List.mem_cons_self ..)
  | unraced hvalue hfair e => cases hok _ (List.mem_cons_of_mem _ (List.mem_cons_self ..))
  | @raced past value rest path baseline target outcome calls result hvalue hfair hrest ih =>
    have hrest' :=
      ih fun call hcall => hok call (List.mem_cons_of_mem _ (List.mem_cons_of_mem _ hcall))
    rw [mem_keys_race hvalue hfair, List.append_assoc, List.append_assoc] at hrest'
    rw [List.map_cons, List.mem_cons, ← or_assoc, or_comm (b := bits = _), ← hrest']
    rfl

/-- The first race is one of the start. -/
theorem Course.start_rated (h : Course start past values calls result)
    (hok : ∀ call ∈ calls, call.failure? = none) (hvalues : values ≠ [])
    (hpast : champion start past = start) :
    ∃ call ∈ calls, (call.rating? start).isSome = true := by
  cases h with
  | finished => exact absurd rfl hvalues
  | unbuilt e => cases hok _ (List.mem_cons_self ..)
  | unraced hvalue hfair e => cases hok _ (List.mem_cons_of_mem _ (List.mem_cons_self ..))
  | @raced _ value rest path baseline target outcome calls result hvalue hfair hrest =>
    refine ⟨.race baseline target (.ok outcome), List.mem_cons_of_mem _ (List.mem_cons_self ..), ?_⟩
    have hbaseline : start = baseline.value := by
      rw [hfair.baseline_eq, champion_build, hpast]
    rw [Call.rating?]
    split_ifs with htarget
    · rfl
    · rfl

end Course

theorem isSome_lastRating? {calls : List Call} {call : Call} {v : Float} (hcall : call ∈ calls)
    (h : (call.rating? v).isSome = true) : (lastRating? calls v).isSome = true := by
  obtain ⟨r, hr⟩ := Option.isSome_iff_exists.1 h
  rw [lastRating?, List.getLast?_isSome]
  exact List.ne_nil_of_mem (List.mem_filterMap.2 ⟨call, hcall, hr⟩)

/-- **What a search finds** if no call fails. -/
theorem climb_finds {σ : Type} (w : Workshop σ) (range : Range) (s : σ)
    (h : range.validate = .ok ()) (hok : ∀ call ∈ callsOf w range s, call.failure? = none) :
    ∃ finding, (climb w range s).result = .ok finding ∧
      Finds range (callsOf w range s) finding := by
  have hascending := Range.pairwise_candidates h
  obtain ⟨e, hcalls, -⟩ | ⟨path, calls, hcalls, hcourse⟩ := climb_course w h s
  · rw [hcalls] at hok
    cases hok _ (List.mem_cons_self ..)
  rw [hcalls] at hok ⊢
  have hok' (call : Call) (hcall : call ∈ calls) : call.failure? = none :=
    hok call (List.mem_cons_of_mem _ hcall)
  obtain ⟨-, hresult⟩ := hcourse.finishes hok'
  have hkeys (bits : UInt64) :
      bits ∈ (tableOf range.start (.build range.start (.ok path) :: calls)).keys ↔
        bits ∈ (range.start :: range.candidates).map Float.toBits := by
    rw [List.map_cons, List.mem_cons]
    exact (hcourse.mem_keys hok' bits).trans (or_congr_left List.mem_singleton)
  have hrated (v : Float) (hv : v ∈ range.start :: range.candidates) :
      (tableOf range.start (.build range.start (.ok path) :: calls)).get? v.toBits =
        some ((lastRating? (.build range.start (.ok path) :: calls) v).getD defaultRating) := by
    have hkey := (hkeys v.toBits).2 (List.mem_map_of_mem hv)
    obtain ⟨r, hr⟩ := Option.isSome_iff_exists.1 ((Table.mem_keys_iff _ _).1 hkey)
    rw [hr, lastRating?_getD hr]
  have htable := (ascending_tableOf _ _).eq_map hascending hkeys hrated
  refine ⟨_, hresult, rfl, htable, hascending, ?_, ?_, ?_⟩
  · exact (congrArg List.length htable).trans (by rw [List.length_map, List.length_cons])
  · intro hnone
    rw [hnone] at hcourse
    generalize (climb w range s).result = result at hcourse
    cases hcourse
    rfl
  · intro hsome v hv
    rcases List.mem_cons.1 hv with rfl | hv'
    · obtain ⟨call, hcall, hrating⟩ := hcourse.start_rated hok' hsome rfl
      exact isSome_lastRating? (List.mem_cons_of_mem _ hcall) hrating
    · have hne : v ≠ range.start := fun heq =>
        (List.nodup_cons.1 (Range.nodup_candidates h)).1 (heq ▸ hv')
      have hget := hrated v hv
      rw [get?_tableOf, if_neg hne, Option.or_none] at hget
      rw [hget]
      rfl

/-- A workshop where only the engine of 1 wins. -/
def oneWins : Workshop ℕ where
  build built _ := { result := .ok ("engine-" ++ toString built), state := built + 1 }
  race built _ target :=
    { result := .ok (if target.value = 1.0 then ⟨990.0, 1010.0⟩ else ⟨1020.0, 980.0⟩)
      state := built }

/-- Of three values the second one is found. -/
theorem climb_finds_one_wins :
    (⟨0.0, 1.0, 2.0⟩ : Range).validate = .ok () ∧
      (∀ call ∈ callsOf oneWins ⟨0.0, 1.0, 2.0⟩ 0, call.failure? = none) ∧
      champion 0.0 (callsOf oneWins ⟨0.0, 1.0, 2.0⟩ 0) = 1.0 ∧
      ∃ finding, (climb oneWins ⟨0.0, 1.0, 2.0⟩ 0).result = .ok finding ∧
        Finds ⟨0.0, 1.0, 2.0⟩ (callsOf oneWins ⟨0.0, 1.0, 2.0⟩ 0) finding := by
  have h : (⟨0.0, 1.0, 2.0⟩ : Range).validate = .ok () :=
    Range.validate_of_isOk (by decide +kernel)
  have hok : ∀ call ∈ callsOf oneWins ⟨0.0, 1.0, 2.0⟩ 0, call.failure? = none := by
    decide +kernel
  exact ⟨h, hok, by decide +kernel, climb_finds oneWins _ 0 h hok⟩

end EngineDuel.Tuning

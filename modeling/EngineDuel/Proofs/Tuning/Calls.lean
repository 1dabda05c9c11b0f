import EngineDuel.Proofs.Tuning.Table
import EngineDuel.Tuning.Climb
import Mathlib.Data.List.Infix

/-!
# The calls of a search

A search calls on a workshop, which builds its engines and lets them play. The calls are seen by
letting the workshop write them down (`Workshop.watched`), which changes nothing else about the
search (`climb_watched`).

1. What calls have brought is known from the calls alone: the best value (`champion`), the rating
   that was reported last for a value (`lastRating?`) and the table of all of these (`tableOf`).
2. The course of a search is a list of calls of a fixed form (`Course`): each value is built and
   races against the best one, both with the ratings they are known by; the first call that fails is
   the last one.
3. Every search of a range whose values differ takes such a course (`climb_course`).
4. Each call is made in the state that the calls before it left (`callsOf_replays`).
-/

namespace EngineDuel.Tuning

/-- A call of a search, with what it brought. -/
inductive Call where
  /-- An engine is built for a value. -/
  | build (value : Float) (result : Except Failure String)
  /-- Two engines play. -/
  | race (baseline target : Contestant) (result : Except Failure RaceOutcome)

namespace Call

/-- How a call failed. -/
def failure? : Call → Option Failure
  | .build _ (.error e) => some e
  | .race _ _ (.error e) => some e
  | _ => none

/-- The rating that a call reported for a value. -/
def rating? (value : Float) : Call → Option Float
  | .race baseline target (.ok outcome) =>
    if value = target.value then some outcome.targetElo
    else if value = baseline.value then some outcome.baselineElo else none
  | _ => none

/-- The value that won over the best one. -/
def winner? : Call → Option Float
  | .race _ target (.ok outcome) =>
    if outcome.targetElo > outcome.baselineElo then some target.value else none
  | _ => none

/-- A table after a call. -/
def record (t : Table) : Call → Table
  | .race baseline target (.ok outcome) =>
    Table.set target.value.toBits outcome.targetElo
      (Table.set baseline.value.toBits outcome.baselineElo t)
  | _ => t

end Call

/-! ## What calls have brought -/

/-- The best value after some calls: the one that won last, or else the start. -/
def champion (start : Float) (calls : List Call) : Float :=
  (calls.filterMap Call.winner?).getLast?.getD start

/-- The rating that was reported last for a value. -/
def lastRating? (calls : List Call) (value : Float) : Option Float :=
  (calls.filterMap (Call.rating? value)).getLast?

/-- The table after some calls. -/
def tableOf (start : Float) (calls : List Call) : Table :=
  calls.foldl Call.record (Table.seeded start.toBits defaultRating)

section Brought

variable {start : Float} {calls : List Call}

theorem champion_append (start : Float) (calls : List Call) (call : Call) :
    champion start (calls ++ [call]) = call.winner?.getD (champion start calls) := by
  unfold champion
  rw [List.filterMap_append]
  cases h : call.winner? with
  | none => rw [List.filterMap_cons_none h, List.filterMap_nil, List.append_nil, Option.getD_none]
  | some v => rw [List.filterMap_cons_some h, List.filterMap_nil, List.getLast?_concat]; rfl

theorem lastRating?_append (calls : List Call) (call : Call) (value : Float) :
    lastRating? (calls ++ [call]) value = (call.rating? value).or (lastRating? calls value) := by
  unfold lastRating?
  rw [List.filterMap_append]
  cases h : call.rating? value with
  | none => rw [List.filterMap_cons_none h, List.filterMap_nil, List.append_nil, Option.none_or]
  | some v => rw [List.filterMap_cons_some h, List.filterMap_nil, List.getLast?_concat]; rfl

theorem tableOf_append (start : Float) (calls : List Call) (call : Call) :
    tableOf start (calls ++ [call]) = call.record (tableOf start calls) := by
  rw [tableOf, List.foldl_append]
  rfl

theorem get?_record (t : Table) (call : Call) (value : Float) :
    (call.record t).get? value.toBits = (call.rating? value).or (t.get? value.toBits) := by
  unfold Call.record Call.rating?
  split
  · simp only [Table.get?_set, Float.toBits_inj]
    split_ifs <;> rfl
  · rw [Option.none_or]

/-- The table tells for each value the rating that was reported last, and for the start the rating
that it was given before. -/
theorem get?_tableOf (start : Float) (calls : List Call) (value : Float) :
    (tableOf start calls).get? value.toBits =
      (lastRating? calls value).or (if value = start then some defaultRating else none) := by
  induction calls using List.reverseRecOn with
  | nil =>
    show (Table.seeded start.toBits defaultRating).get? value.toBits = _
    simp only [Table.seeded, Table.get?_set, Float.toBits_inj]
    rfl
  | append_singleton calls call ih =>
    rw [tableOf_append, lastRating?_append, get?_record, ih, Option.or_assoc]

theorem ascending_tableOf (start : Float) (calls : List Call) : (tableOf start calls).Ascending := by
  induction calls using List.reverseRecOn with
  | nil => exact List.pairwise_singleton _ _
  | append_singleton calls call ih =>
    rw [tableOf_append]
    unfold Call.record
    split
    · exact (ih.set _ _).set _ _
    · exact ih

/-- A call that lets a value win reports a rating for it. -/
theorem isSome_rating?_of_winner? {call : Call} {value : Float} (h : call.winner? = some value) :
    (call.rating? value).isSome = true := by
  unfold Call.winner? at h
  split at h
  · split_ifs at h
    cases h
    rw [Call.rating?, if_pos rfl]
    rfl
  · cases h

/-- The best value is in the table. -/
theorem isSome_get?_champion (start : Float) (calls : List Call) :
    ((tableOf start calls).get? (champion start calls).toBits).isSome = true := by
  induction calls using List.reverseRecOn with
  | nil =>
    show ((Table.seeded start.toBits defaultRating).get? start.toBits).isSome = true
    rw [Table.seeded, Table.get?_set, if_pos rfl]
    rfl
  | append_singleton calls call ih =>
    rw [tableOf_append, champion_append, get?_record, Option.isSome_or, Bool.or_eq_true]
    cases h : call.winner? with
    | none => exact .inr ih
    | some value => exact .inl (isSome_rating?_of_winner? h)

end Brought

/-! ## Watching -/

namespace Workshop

variable {σ : Type} (w : Workshop σ)

/-- A workshop that writes down how it is called. -/
def watched : Workshop (σ × List Call) where
  build s value :=
    let built := w.build s.1 value
    { result := built.result
      state := (built.state, s.2 ++ [.build value built.result])
      log := built.log }
  race s baseline target :=
    let raced := w.race s.1 baseline target
    { result := raced.result
      state := (raced.state, s.2 ++ [.race baseline target raced.result])
      log := raced.log }

theorem watched_build (s : σ) (calls : List Call) (value : Float) :
    w.watched.build (s, calls) value =
      { result := (w.build s value).result
        state := ((w.build s value).state, calls ++ [.build value (w.build s value).result])
        log := (w.build s value).log } := rfl

theorem watched_race (s : σ) (calls : List Call) (baseline target : Contestant) :
    w.watched.race (s, calls) baseline target =
      { result := (w.race s baseline target).result
        state := ((w.race s baseline target).state,
          calls ++ [.race baseline target (w.race s baseline target).result])
        log := (w.race s baseline target).log } := rfl

end Workshop

section Course

variable {σ : Type} (w : Workshop σ)

/-- A watched step without what was written down. -/
def unwatched {ε τ : Type} (s : Step (σ × List Call) ε τ) : Step σ ε τ :=
  { result := s.result, state := s.state.1, log := s.log }

theorem unwatched_withLog {ε τ : Type} (log : List LogLine) (s : Step (σ × List Call) ε τ) :
    unwatched (withLog log s) = withLog log (unwatched s) := rfl

theorem climbFrom_watched (total number : ℕ) (rest : List Float) (best : Contestant) (table : Table)
    (s : σ) (calls : List Call) :
    unwatched (climbFrom w.watched total number rest best table (s, calls)) =
      climbFrom w total number rest best table s := by
  induction rest generalizing number best table s calls with
  | nil => rfl
  | cons value rest ih =>
    simp only [climbFrom, Workshop.watched_build, Workshop.watched_race, unwatched_withLog]
    congr 1
    cases (w.build s value).result with
    | error e => rfl
    | ok path =>
      simp only [unwatched_withLog]
      congr 1
      generalize w.race _ _ _ = raced
      obtain ⟨e | outcome, s', log⟩ := raced
      · rfl
      · dsimp only
        split
        · rw [unwatched_withLog, ih]
        · rw [ih]

/-- **Watching a search changes nothing about it.** -/
theorem climb_watched (range : Range) (s : σ) (calls : List Call) :
    unwatched (climb w.watched range (s, calls)) = climb w range s := by
  unfold climb
  cases range.validate with
  | error e => rfl
  | ok _ =>
    simp only [Workshop.watched_build, unwatched_withLog]
    congr 1
    cases (w.build s range.start).result with
    | error e => rfl
    | ok path => exact climbFrom_watched w _ _ _ _ _ _ _

/-- The calls of a search. -/
def callsOf (range : Range) (s : σ) : List Call := (climb w.watched range (s, [])).state.2

end Course

/-! ## Replaying -/

section Replay

variable {σ : Type} {w : Workshop σ}

/-- The loop keeps what every call keeps. -/
theorem climbFrom_keeps {P : σ → Prop} (hbuild : ∀ s value, P s → P (w.build s value).state)
    (hrace : ∀ s baseline target, P s → P (w.race s baseline target).state) (total number : ℕ)
    (rest : List Float) (best : Contestant) (table : Table) {s : σ} (h : P s) :
    P (climbFrom w total number rest best table s).state := by
  induction rest generalizing number best table s with
  | nil => exact h
  | cons value rest ih =>
    have hbuilt := hbuild s value h
    rw [climbFrom]
    dsimp only [withLog]
    cases (w.build s value).result with
    | error e => exact hbuilt
    | ok path =>
      dsimp only
      have hraced := hrace (w.build s value).state
        { best with rating := (table.get? best.value.toBits).getD defaultRating }
        { value, path, rating := (table.get? value.toBits).getD
            ((table.get? best.value.toBits).getD defaultRating) } hbuilt
      split
      · exact hraced
      · split_ifs
        · exact ih _ _ _ hraced
        · exact ih _ _ _ hraced

/-- **A search keeps what every call keeps.** -/
theorem climb_keeps {P : σ → Prop} (hbuild : ∀ s value, P s → P (w.build s value).state)
    (hrace : ∀ s baseline target, P s → P (w.race s baseline target).state) (range : Range) {s : σ}
    (h : P s) : P (climb w range s).state := by
  unfold climb
  cases range.validate with
  | error e => exact h
  | ok _ =>
    have hbuilt := hbuild s range.start h
    dsimp only [withLog]
    cases (w.build s range.start).result with
    | error e => exact hbuilt
    | ok path => exact climbFrom_keeps hbuild hrace _ _ _ _ _ hbuilt

variable (w)

/-- The state after a call. -/
def Workshop.next (s : σ) : Call → σ
  | .build value _ => (w.build s value).state
  | .race baseline target _ => (w.race s baseline target).state

/-- The state after some calls. -/
def Workshop.stateAfter (s : σ) (calls : List Call) : σ := calls.foldl w.next s

/-- Whether a call brings this in a state. -/
def Workshop.Brings (s : σ) : Call → Prop
  | .build value result => (w.build s value).result = result
  | .race baseline target result => (w.race s baseline target).result = result

/-- Each call brings what it does in the state that those before it left. -/
def Workshop.Replays (s : σ) (calls : List Call) : Prop :=
  ∀ before call after, calls = before ++ call :: after → w.Brings (w.stateAfter s before) call

variable {w} {s : σ} {calls : List Call} {call : Call}

theorem Workshop.stateAfter_nil (w : Workshop σ) (s : σ) : w.stateAfter s [] = s := rfl

theorem Workshop.stateAfter_build (w : Workshop σ) (s : σ) (value : Float)
    (result : Except Failure String) (calls : List Call) :
    w.stateAfter s (.build value result :: calls) = w.stateAfter (w.build s value).state calls :=
  rfl

theorem Workshop.stateAfter_append (w : Workshop σ) (s : σ) (calls more : List Call) :
    w.stateAfter s (calls ++ more) = w.stateAfter (w.stateAfter s calls) more :=
  List.foldl_append

theorem Workshop.stateAfter_concat (w : Workshop σ) (s : σ) (calls : List Call) (call : Call) :
    w.stateAfter s (calls ++ [call]) = w.next (w.stateAfter s calls) call :=
  w.stateAfter_append s calls [call]

theorem Workshop.brings_build {value : Float} {result : Except Failure String} :
    w.Brings s (.build value result) ↔ (w.build s value).result = result := Iff.rfl

theorem Workshop.Replays.concat (h : w.Replays s calls)
    (hcall : w.Brings (w.stateAfter s calls) call) : w.Replays s (calls ++ [call]) := by
  intro before call' after heq
  rcases List.eq_nil_or_concat' after with rfl | ⟨after, last, rfl⟩
  · obtain ⟨rfl, hlast⟩ := List.append_inj' heq rfl
    cases hlast
    exact hcall
  · rw [← List.cons_append, ← List.append_assoc] at heq
    obtain ⟨rfl, -⟩ := List.append_inj' heq rfl
    exact h before call' after rfl

/-- **The calls of a search are made one after another**, each in the state that those before it
left, and the search ends in the state after the last one. -/
theorem callsOf_replays (w : Workshop σ) (range : Range) (s : σ) :
    w.Replays s (callsOf w range s) ∧
      (climb w range s).state = w.stateAfter s (callsOf w range s) := by
  have hend : (climb w range s).state = (climb w.watched range (s, [])).state.1 := by
    rw [← climb_watched w range s []]
    rfl
  rw [hend, callsOf]
  refine climb_keeps (w := w.watched)
    (P := fun x : σ × List Call => w.Replays s x.2 ∧ x.1 = w.stateAfter s x.2) ?_ ?_ range ?_
  · rintro ⟨s', calls⟩ value ⟨hreplays, hstate⟩
    obtain rfl : s' = w.stateAfter s calls := hstate
    exact ⟨hreplays.concat rfl, (w.stateAfter_concat s calls (.build value _)).symm⟩
  · rintro ⟨s', calls⟩ baseline target ⟨hreplays, hstate⟩
    obtain rfl : s' = w.stateAfter s calls := hstate
    exact ⟨hreplays.concat rfl, (w.stateAfter_concat s calls (.race baseline target _)).symm⟩
  · exact ⟨fun before call after heq => absurd heq (by simp), rfl⟩

end Replay

end EngineDuel.Tuning

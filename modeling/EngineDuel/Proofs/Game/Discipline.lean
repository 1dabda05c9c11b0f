import EngineDuel.Proofs.Game.Silence
import EngineDuel.Proofs.Game.ToldMoves

/-!
# The discipline of a game that fails

`failures_disciplined`: whatever two engines do that report truthfully whether they were stopped, a
failed request to one of them is the last one to it, and the last one of the game unless a `gen` was
not answered in time; the result of the game is the failure of its last request; only a mover that did
not answer in time is stopped; and the moves that were reported are those on which both engines agreed.

A game without a failure is clean, and one that fails does so by its last request (`GameCourse.fate`);
so a request that makes a game fail is its last one (`Fate.fatal`), and the only failed request after
which anything is asked is a late `gen` (`Fate.silent`).
-/

namespace EngineDuel.Game

variable {α β : Type}

/-! ## The discipline of a game -/

/-- **The discipline of a game**, as its requests, events and result show it. -/
structure Disciplined (c : GameConfig) (seating : Seating) (label : Player → String)
    (events : List Event) (result : Except GameError GameRecord) : Prop where
  /-- After a request that failed nothing is asked of that engine. -/
  silent : ∀ before r later e, requests events = before ++ r :: later →
    r.exchange.result = .error e → ∀ r' ∈ later, r'.player ≠ r.player
  /-- A request that makes the game fail is its last one, and tells its result. -/
  fatal : ∀ asked e, asked <+: requests events → FailsBy seating label asked e →
    asked = requests events ∧ result = .error e
  /-- A game fails by its last request, or because the turn counter is outgrown. -/
  only : ∀ e, result = .error e → FailsBy seating label (requests events) e ∨
    e = .overflow .onAddition ∧ c.maxTurns = none ∧ gens (requests events) + 1 = UInt32.size
  /-- Only a player whose `gen` was late is stopped, and only once. -/
  stops_eq : stops events = lates (requests events)
  stops_le : (stops events).length ≤ 1
  /-- The moves that are reported are those on which both engines agreed. -/
  reported_eq : reported events = agreed (requests events)
  /-- They are the moves of the first turns, each by the player of its colour. -/
  movesFrom : MovesFrom seating 1 (moves events)

section Discipline

variable {c : GameConfig} {seating : Seating} {label : Player → String} {events : List Event}
  {result : Except GameError GameRecord}

theorem Fate.fatal (h : Fate c seating label (requests events) result) {asked : List Request}
    {e : GameError} (hpre : asked <+: requests events) (he : FailsBy seating label asked e) :
    asked = requests events ∧ result = .error e := by
  cases h with
  | fine h => exact absurd he (h hpre)
  | failed h hrs he' =>
    rw [hrs] at hpre
    rcases List.prefix_concat_iff.mp hpre with rfl | hpre
    · rw [hrs] at he'
      exact ⟨hrs.symm, congrArg _ (he.unique he')⟩
    · exact absurd he (h hpre)
  | counterFull h _ _ => exact absurd he (h hpre)

theorem Fate.only (h : Fate c seating label (requests events) result) {e : GameError}
    (he : result = .error e) : FailsBy seating label (requests events) e ∨
      e = .overflow .onAddition ∧ c.maxTurns = none ∧ gens (requests events) + 1 = UInt32.size := by
  cases h with
  | fine h => cases he
  | failed h hrs he' =>
    cases he
    exact .inl he'
  | counterFull h hgens hmax =>
    cases he
    exact .inr ⟨rfl, hmax, hgens⟩

theorem Fate.silent (h : Fate c seating label (requests events) result)
    (hlate : SilentAfterLate (requests events)) {before later : List Request} {r : Request}
    {e : LinkError} (hrs : requests events = before ++ r :: later)
    (hx : r.exchange.result = .error e) : ∀ r' ∈ later, r'.player ≠ r.player := by
  cases hr : r.isLate with
  | true =>
    rw [hrs] at hlate
    intro r' hr'
    exact (List.pairwise_cons.mp (List.pairwise_append.mp hlate).2.1).1 r' hr' hr
  | false =>
    have hpre : before ++ [r] <+: requests events := by
      rw [hrs]
      exact ⟨later, (List.append_cons before r later).symm⟩
    obtain ⟨hall, -⟩ := h.fatal hpre (.link hx hr)
    rw [hrs] at hall
    cases List.append_cancel_left hall
    nofun

end Discipline

/-- **The failure discipline of a game** between two engines that report truthfully whether they were
stopped. -/
theorem failures_disciplined (engines : Engines α β) (s : States α β) (seating : Seating)
    (c : GameConfig) (ha : engines.a.Candid s.a) (hb : engines.b.Candid s.b) :
    Disciplined c seating (engines.label (play engines s seating c).states)
      (play engines s seating c).events (play engines s seating c).result := by
  have hcourse := play_course engines s seating c
  have hfate := hcourse.fate fun e => play_names s (e := e)
  obtain ⟨hsilent, hlates, hlength⟩ := hcourse.silent ha hb
  have htold := hcourse.told
  exact {
    silent := fun _ _ _ _ hrs hx => hfate.silent hsilent hrs hx
    fatal := fun _ _ hpre he => hfate.fatal hpre he
    only := fun _ he => hfate.only he
    stops_eq := hlates.symm
    stops_le := hlength
    reported_eq := htold.agreed_eq.symm
    movesFrom := htold.movesFrom }

/-- Two engines of which the one that moves second declares a result that the other does not. -/
def atOdds : States Rehearsed Rehearsed :=
  ⟨{ label := "a" }, { label := "b", play := [.now none, .now (some "white")] }⟩

/-- What becomes of a game between them. -/
def atOddsError : GameError := .winnerMismatch 2 "m2" "b" (some "white") "a" none

theorem failures_disciplined_at_odds :
    (play ⟨Rehearsed.engine, Rehearsed.engine⟩ atOdds ⟨.black⟩ {}).result = .error atOddsError ∧
      FailsBy ⟨.black⟩
        (Engines.label ⟨Rehearsed.engine, Rehearsed.engine⟩
          (play ⟨Rehearsed.engine, Rehearsed.engine⟩ atOdds ⟨.black⟩ {}).states)
        (requests (play ⟨Rehearsed.engine, Rehearsed.engine⟩ atOdds ⟨.black⟩ {}).events)
        atOddsError := by
  have h : (play ⟨Rehearsed.engine, Rehearsed.engine⟩ atOdds ⟨.black⟩ {}).result =
      .error atOddsError := rfl
  have hdisciplined := failures_disciplined ⟨Rehearsed.engine, Rehearsed.engine⟩ atOdds ⟨.black⟩ {}
    (Rehearsed.candid rfl) (Rehearsed.candid rfl)
  rcases hdisciplined.only _ h with hfails | ⟨hoverflow, -⟩
  · exact ⟨h, hfails⟩
  · cases hoverflow

end EngineDuel.Game

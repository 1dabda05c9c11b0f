import EngineDuel.Proofs.Game.RequestOrder

/-!
# The verdict of a game

`verdict_sound`: the record of a game says what the requests of the game showed. `EndsBy` lists the
four ways in which a last turn ends a game, with the reason and the winner of each.

1. A turn that ends the game ends it in one of the four ways (`TurnCourse.endsBy`), and its requests
   fit only one of them (`EndsBy.unique`).
2. The turns before it were quiet, so none of them was the last of the rules (`InTurn.le_limit`).
3. Only a timeout stops an engine, that of the mover; so the history and the board are those of A,
   unless A has lost by a timeout (`TurnsCourse.stops_eq`).
-/

namespace EngineDuel.Game

variable {α β : Type}

section Endings

variable (c : GameConfig) (seating : Seating) (n : ℕ)

/-- How turn `n` ends a game: the reason, the winner, and the requests of the turn. -/
inductive EndsBy : Termination → Option Color → List Request → Prop where
  /-- The mover has no move. -/
  | noLegalMove {x} : x.result = .ok (some "none") →
      EndsBy .noLegalMove (some (turnColor n).flip) [genRequest c seating n x]
  /-- The mover does not answer in time. -/
  | timeout {x engine command limit} : x.result = .error (.timeout engine command limit) →
      EndsBy .timeout (some (turnColor n).flip) [genRequest c seating n x]
  /-- Both engines declare the same result of the move. -/
  | declared {x token own others text} : x.result = .ok (some token) → token ≠ "none" →
      own.result = .ok (some text) → others.result = .ok (some text) →
      EndsBy .declared (declaredWinner text)
        (genRequest c seating n x :: playRequests seating n token own others)
  /-- Neither engine declares a result, and the rules allow no further turn. -/
  | turnLimit {x token own others ms time answer limit} : x.result = .ok (some token) →
      token ≠ "none" → own.result = .ok none → others.result = .ok none →
      time.result = .ok answer → c.maxTurns = some limit → n = max limit.toNat 1 →
      EndsBy .turnLimit none
        (genRequest c seating n x :: playRequests seating n token own others ++
          [timeRequest seating n ms time])

variable {c seating n} {clocks : ByPlayer Clock} {events : List Event}

/-- The requests of a turn fit one ending only: what was asked tells how far the turn went, and the
answers tell the rest. -/
theorem EndsBy.unique {k k' : Termination} {w w' : Option Color} {rs : List Request}
    (h : EndsBy c seating n k w rs) (h' : EndsBy c seating n k' w' rs) : k' = k ∧ w' = w := by
  have key : ∀ {rs rs'}, rs = rs' → EndsBy c seating n k w rs → EndsBy c seating n k' w' rs' →
      k' = k ∧ w' = w := by
    intro rs rs' hrs h h'
    cases h <;> cases h' <;> simp_all [genRequest, playRequests, timeRequest]
  exact key rfl h h'

/-- A turn that ends the game ends it in one of the four ways. -/
theorem TurnCourse.endsBy {winner : Option Color} {k : Termination} {clocks' : ByPlayer Clock}
    (hb : Budgeted c clocks) (hn : n < UInt32.size)
    (hmax : ∀ limit, c.maxTurns = some limit → n ≤ max limit.toNat 1) (hpos : 1 ≤ n)
    (h : TurnCourse c seating n clocks events (.ok (.over winner k clocks'))) :
    EndsBy c seating n k winner (requests events) := by
  cases h with
  | timeout hx =>
    rw [requests_append, requests_genEvents hb]
    exact .timeout hx
  | noMove hx =>
    rw [requests_append, requests_genEvents hb]
    exact .noLegalMove hx
  | played hx hnone hmove =>
    rw [requests_append, requests_genEvents hb]
    cases hmove with
    | declared hown hothers => exact .declared hx hnone hown hothers
    | lastTurn hown hothers htime hlast =>
      obtain ⟨limit, hlimit, hle⟩ := (isLastTurn_iff hn).mp hlast
      have := hmax limit hlimit
      exact .turnLimit hx hnone hown hothers htime hlimit (by omega)

/-! ## The turns before the last -/

theorem InTurn.le {T : ℕ → List Request → Prop} {m : ℕ} {rs : List Request}
    (h : InTurn T n m rs) : n ≤ m := by
  induction h with
  | none => exact Nat.le_refl _
  | next _ _ ih => omega

/-- After quiet turns the next one is within the limit of the rules. -/
theorem InTurn.le_limit {m : ℕ} {rs : List Request} (h : InTurn (QuietTurn c seating) n m rs)
    (hnm : n < m) {limit : UInt32} (hlimit : c.maxTurns = some limit) : m ≤ limit.toNat := by
  induction h with
  | none => omega
  | @next n m rs more hrs hmore ih =>
    by_cases hnext : n + 1 < m
    · exact ih hnext
    · have := hmore.le
      cases hrs with
      | mk _ _ _ _ _ hmax =>
        have := hmax limit hlimit
        omega

theorem InTurn.le_max {m : ℕ} {rs : List Request} (h : InTurn (QuietTurn c seating) 1 m rs)
    {limit : UInt32} (hlimit : c.maxTurns = some limit) : m ≤ max limit.toNat 1 := by
  by_cases hm : 1 < m
  · have := h.le_limit hm hlimit; omega
  · omega

/-- The turns of a game that ends with a verdict: quiet turns and one that ends the game, who only
stops its mover and only by a timeout. -/
theorem TurnsCourse.verdict {v : Verdict}
    (h : TurnsCourse c seating 0 (startClocks c) events (.ok v)) :
    ∃ turns last, InTurn (QuietTurn c seating) 1 v.turns.toNat turns ∧
      EndsBy c seating v.turns.toNat v.termination v.winner last ∧
      requests events = turns ++ last ∧
      stops events = if v.termination = .timeout then [mover seating v.turns.toNat] else [] := by
  cases h with
  | @ended before m clocks' last winner termination clocks'' hq hm hlast =>
    obtain ⟨hquiet, hb⟩ := hq.inTurn (budgeted_startClocks c)
    have hturns : (UInt32.ofNat (m + 1)).toNat = m + 1 := UInt32.toNat_ofNat_of_lt' hm
    have hends := hlast.endsBy hb hm (fun _ => hquiet.le_max) (by omega)
    have hstops := hlast.stops_eq
    simp only [hturns]
    refine ⟨_, _, hquiet, hends, requests_append _ _, ?_⟩
    rw [stops_append, hq.stops_eq, hstops]
    cases termination <;> rfl

end Endings

/-! ## Counting the turns -/

/-- How often a player was asked for a move. -/
def gens (rs : List Request) : ℕ := rs.countP (·.command = "gen")

theorem gens_append (xs ys : List Request) : gens (xs ++ ys) = gens xs + gens ys :=
  List.countP_append

section Gens

variable {c : GameConfig} {seating : Seating} {n : ℕ}

theorem gens_eq_zero {rs : List Request} (h : ∀ r ∈ rs, r.command ≠ "gen") : gens rs = 0 :=
  List.countP_eq_zero.mpr fun r hr => by simpa using h r hr

theorem Asks.gens_eq {p : Player} {commands : List String} {rs : List Request}
    (h : Asks p commands rs)
    (hplain : ∀ command ∈ commands, command ≠ "gen" ∧ playToken? command = none) : gens rs = 0 :=
  gens_eq_zero fun _ hr => (hplain _ (h.of_mem hr).2.1).1

theorem gens_gen (x : Exchange) (rs : List Request) :
    gens (genRequest c seating n x :: rs) = gens rs + 1 :=
  List.countP_cons_of_pos rfl

theorem gens_plays (token : String) (own others : Exchange) :
    gens (playRequests seating n token own others) = 0 := by
  refine gens_eq_zero fun r hr => ?_
  simp only [playRequests, List.mem_cons, List.not_mem_nil, or_false] at hr
  rcases hr with rfl | rfl <;> exact play_ne_gen token

theorem gens_time (ms : UInt64) (time : Exchange) : gens [timeRequest seating n ms time] = 0 := by
  refine gens_eq_zero fun r hr => ?_
  rw [List.mem_singleton.mp hr]
  exact (plain_time _).1

/-- Each turn has one `gen`. -/
theorem LastTurn.gens_eq {rs : List Request} (h : LastTurn c seating n rs) : gens rs = 1 := by
  cases h with
  | gen => exact gens_gen _ []
  | plays => rw [gens_gen, gens_plays]
  | whole => rw [List.cons_append, gens_gen, gens_append, gens_plays, gens_time]

theorem EndsBy.lastTurn {k : Termination} {w : Option Color} {rs : List Request}
    (h : EndsBy c seating n k w rs) : LastTurn c seating n rs := by
  cases h with
  | noLegalMove => exact .gen
  | timeout => exact .gen
  | declared hx hnone => exact .plays hx hnone
  | turnLimit hx hnone => exact .whole hx hnone

theorem InTurn.gens_eq {m : ℕ} {rs : List Request} (h : InTurn (QuietTurn c seating) n m rs) :
    n + gens rs = m := by
  induction h with
  | none => rfl
  | next hrs _ ih => rw [gens_append, hrs.lastTurn.gens_eq, ← ih]; omega

end Gens

/-! ## The record -/

/-- The points of a player follow from who has won. -/
theorem score_eq (record : GameRecord) (p : Player) :
    record.score p =
      match record.winningPlayer with
      | none => 0.5
      | some q => if q = p then 1.0 else 0.0 := by
  unfold GameRecord.score GameRecord.winningPlayer
  cases record.winner with
  | none => rfl
  | some color =>
    have key : color = record.seating.colorOf p ↔ record.seating.playerOf color = p := by
      constructor
      · rintro rfl; exact record.seating.playerOf_colorOf p
      · rintro rfl; exact (record.seating.colorOf_playerOf color).symm
    simp only [key, Option.map_some]

/-- A loss of the mover is a win of the other player. -/
theorem EndsBy.winningPlayer {c : GameConfig} {seating : Seating} {n : ℕ} {k : Termination}
    {w : Option Color} {rs : List Request} (h : EndsBy c seating n k w rs)
    (hk : k = .noLegalMove ∨ k = .timeout) :
    w.map seating.playerOf = some (mover seating n).other := by
  have key : seating.playerOf (turnColor n).flip = (mover seating n).other :=
    seating.playerOf_flip _
  cases h with
  | noLegalMove => exact congrArg some key
  | timeout => exact congrArg some key
  | declared => rcases hk with hk | hk <;> cases hk
  | turnLimit => rcases hk with hk | hk <;> cases hk

/-- The requests of a game that ended with `record`: the limits, quiet turns up to the last one, a last
turn that fits the ending of the record and no other, and the questions for history and board. They
go to A, unless A did not answer in time. -/
inductive Played (c : GameConfig) (seating : Seating) (record : GameRecord) :
    List Request → Prop where
  | mk {limits otherLimits turns last reader history board answer answer'} :
      Asks .a (limitTexts c.clocks.a) limits → Asks .b (limitTexts c.clocks.b) otherLimits →
      InTurn (QuietTurn c seating) 1 record.turns.toNat turns →
      (∀ k w, EndsBy c seating record.turns.toNat k w last ↔
        k = record.termination ∧ w = record.winner) →
      reader = (if record.termination = .timeout ∧ mover seating record.turns.toNat = .a
        then .b else .a) →
      history.result = .ok answer → record.history = answer.getD "" →
      board.result = .ok answer' → record.board = answer'.getD "" →
      Played c seating record (limits ++ otherLimits ++ turns ++ last ++
        [⟨reader, "history", none, history⟩, ⟨reader, "board", none, board⟩])

section Played

variable {c : GameConfig} {seating : Seating} {record : GameRecord} {rs : List Request}

theorem Played.gens_eq (h : Played c seating record rs) : gens rs = record.turns.toNat := by
  cases h with
  | mk hlimits hlimits' hturns hends _ _ _ _ _ =>
    have hlast := ((hends _ _).mpr ⟨rfl, rfl⟩).lastTurn
    have hcount := hturns.gens_eq
    rw [gens_append, gens_append, gens_append, gens_append, hlimits.gens_eq (plain_limitTexts _),
      hlimits'.gens_eq (plain_limitTexts _), hlast.gens_eq,
      (asks_closing _ _ _).gens_eq plain_closing]
    omega

theorem Played.one_le (h : Played c seating record rs) : 1 ≤ record.turns.toNat := by
  cases h with
  | mk _ _ hturns _ _ _ _ _ _ => exact hturns.le

theorem Played.le_limit (h : Played c seating record rs) {limit : UInt32}
    (hlimit : c.maxTurns = some limit) : record.turns.toNat ≤ max limit.toNat 1 := by
  cases h with
  | mk _ _ hturns _ _ _ _ _ _ => exact hturns.le_max hlimit

/-- A player who has no move or does not answer in time loses. -/
theorem Played.winningPlayer (h : Played c seating record rs) (hseating : record.seating = seating)
    (hk : record.termination = .noLegalMove ∨ record.termination = .timeout) :
    record.winningPlayer = some (mover seating record.turns.toNat).other := by
  subst hseating
  cases h with
  | mk _ _ _ hends _ _ _ _ _ => exact ((hends _ _).mpr ⟨rfl, rfl⟩).winningPlayer hk

/-- A game that ends with a record was played as the record says. -/
theorem GameCourse.played {engines : Engines α β} {s : States α β} {events : List Event}
    (ha : engines.a.Candid s.a) (hb : engines.b.Candid s.b)
    (h : GameCourse c seating (engines.reader s) events (.ok record)) :
    record.seating = seating ∧ Played c seating record (requests events) := by
  cases h with
  | @recorded ev ev' turns v _ history answer _ board answer' hlimits hlimits' hturns hh hboard =>
    obtain ⟨limits, hasks, -, hall⟩ := hlimits.prefix_asks
    obtain ⟨limits', hasks', -, hall'⟩ := hlimits'.prefix_asks
    obtain ⟨quiet, last, hquiet, hends, hrequests, hstops⟩ := hturns.verdict
    have hreader : engines.reader s (ev ++ ev' ++ turns) =
        if v.termination = .timeout ∧ mover seating v.turns.toNat = .a then .b else .a := by
      have hall_stops : stops (ev ++ ev' ++ turns) = stops turns := by
        rw [stops_append, stops_append, hlimits.stops_eq, hlimits'.stops_eq]; rfl
      unfold Engines.reader
      simp only [isTerminated_after_iff ha hb, hall_stops, hstops]
      by_cases hk : v.termination = .timeout
      · simp only [hk, if_true, List.mem_singleton, true_and, eq_comm]
      · simp only [hk, if_false, List.not_mem_nil, false_and]
    have honly : ∀ k w, EndsBy c seating v.turns.toNat k w last ↔
        k = v.termination ∧ w = v.winner := by
      refine fun k w => ⟨fun h => hends.unique h, ?_⟩
      rintro ⟨rfl, rfl⟩
      exact hends
    refine ⟨rfl, ?_⟩
    simp only [requests_append, hall rfl, hall' rfl, hrequests, ← List.append_assoc]
    exact .mk hasks hasks' hquiet honly hreader hh rfl hboard rfl

end Played

/-- **Soundness of the verdict.** If a game between two engines that report truthfully whether they
were stopped ends with a record of `n` turns, it was played as the record says, with `n` requests
for a move. A player who has no move or does not answer in time loses to the other, and the points
follow from who has won. No game outlasts the limit of the rules. -/
theorem verdict_sound (engines : Engines α β) (s : States α β) (seating : Seating) (c : GameConfig)
    (record : GameRecord) (ha : engines.a.Candid s.a) (hb : engines.b.Candid s.b)
    (h : (play engines s seating c).result = .ok record) :
    record.seating = seating ∧ 1 ≤ record.turns.toNat ∧
      gens (requests (play engines s seating c).events) = record.turns.toNat ∧
      Played c seating record (requests (play engines s seating c).events) ∧
      (record.termination = .noLegalMove ∨ record.termination = .timeout →
        record.winningPlayer = some (mover seating record.turns.toNat).other) ∧
      (∀ p, record.score p =
        match record.winningPlayer with
        | none => 0.5
        | some q => if q = p then 1.0 else 0.0) ∧
      ∀ limit, c.maxTurns = some limit → record.turns.toNat ≤ max limit.toNat 1 := by
  have hcourse := play_course engines s seating c
  rw [h] at hcourse
  obtain ⟨hseating, hplayed⟩ := hcourse.played ha hb
  exact ⟨hseating, hplayed.one_le, hplayed.gens_eq, hplayed, hplayed.winningPlayer hseating,
    score_eq record, fun _ => hplayed.le_limit⟩

/-- An engine that has a move, and one that does not answer in time. -/
def swiftAndLate : States Rehearsed Rehearsed :=
  ⟨{ label := "a" }, { label := "b", gen := [{ ending := .timeout }] }⟩

/-- The record of a game in which white does not answer in time. -/
def lateRecord : GameRecord where
  seating := ⟨.black⟩
  winner := some .black
  termination := .timeout
  turns := 2
  history := "m1"
  board := "1 stones"
  remaining := ⟨610000, 600000⟩

theorem verdict_sound_late :
    (play ⟨Rehearsed.engine, Rehearsed.engine⟩ swiftAndLate ⟨.black⟩ {}).result = .ok lateRecord ∧
      lateRecord.winningPlayer = some (mover ⟨.black⟩ 2).other := by
  have h : (play ⟨Rehearsed.engine, Rehearsed.engine⟩ swiftAndLate ⟨.black⟩ {}).result =
      .ok lateRecord := rfl
  have hsound := verdict_sound ⟨Rehearsed.engine, Rehearsed.engine⟩ swiftAndLate ⟨.black⟩ {}
    lateRecord (Rehearsed.candid rfl) (Rehearsed.candid rfl) h
  exact ⟨h, hsound.2.2.2.2.1 (.inr rfl)⟩

end EngineDuel.Game

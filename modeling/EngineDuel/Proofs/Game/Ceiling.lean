import EngineDuel.Proofs.Game.Failures
import EngineDuel.Proofs.Game.ToldMoves

/-!
# Games with a last turn

`ceiling_kept`: if the rules name a last turn, a game is over within as many turns, or within one if
they name turn zero. Whatever the engines answer, this bounds what they are asked and the moves that
are reported, and the turn counter is never outgrown (`WithinTurns`).

1. A turn is at most four requests and one move, and a dialogue adds eight requests to its turns
   (`Dialogue.bounds`).
2. A turn after which the game goes on is not the last one of the rules. So there are at most as many
   as the rules allow, which the turn counter can count (`QuietTurns.next_le`).
3. Nobody is asked for a move only if a limit was refused (`GameCourse.begun`), and a game that ends
   by its last turn has used all that it was allowed (`GameCourse.exhausted`).
-/

namespace EngineDuel.Game

variable {α β : Type}

/-- A game that keeps within some number of turns. -/
structure WithinTurns (most : ℕ) (events : List Event) (result : Except GameError GameRecord) :
    Prop where
  /-- So often, at most, a player is asked for a move. -/
  gens_le : gens (requests events) ≤ most
  length_requests_le : (requests events).length ≤ 4 * most + 8
  length_moves_le : (moves events).length ≤ most
  /-- The turn counter is not outgrown. -/
  counted : ∀ o, result ≠ .error (.overflow o)
  /-- There is a first turn, unless one of the six limits before it was refused. -/
  begun : gens (requests events) = 0 → ∃ told r e, requests events = told ++ [r] ∧
    told.length < 6 ∧ r.exchange.result = .error e ∧ result = .error (.link e)
  /-- A record tells how many turns there were. -/
  turns_eq : ∀ record, result = .ok record → record.turns.toNat = gens (requests events)
  /-- A game that ends by the last turn of the rules has had all its turns, each of them whole. -/
  exhausted : ∀ record, result = .ok record → record.termination = .turnLimit →
    record.turns.toNat = most ∧ (requests events).length = 4 * most + 8 ∧
      (moves events).length = most

section Turns

variable {c : GameConfig} {seating : Seating} {n m : ℕ} {clocks clocks' : ByPlayer Clock}
  {events : List Event} {rs : List Request} {limit : UInt32}

/-! ## Requests -/

theorem LastTurn.length_le (h : LastTurn c seating n rs) : rs.length ≤ 4 := by
  cases h <;> simp [playRequests]

theorem QuietTurn.length_eq (h : QuietTurn c seating n rs) : rs.length = 4 := by
  cases h
  rfl

theorem InTurn.length_eq (h : InTurn (QuietTurn c seating) n m rs) : rs.length = 4 * (m - n) := by
  induction h with
  | none => rw [Nat.sub_self]; rfl
  | next hrs hmore ih =>
    have hle := hmore.le
    rw [List.length_append, hrs.length_eq, ih]
    omega

theorem Asks.length_eq {p : Player} {commands : List String} (h : Asks p commands rs) :
    rs.length = commands.length := by
  simpa using congrArg List.length h

/-- What a whole dialogue comes to. -/
theorem Dialogue.bounds (h : Dialogue c seating rs) (hlimit : c.maxTurns = some limit) :
    gens rs ≤ max limit.toNat 1 ∧ rs.length ≤ 4 * max limit.toNat 1 + 8 := by
  cases h with
  | mk ha hb hturns hlast hclosing =>
    have hle := hturns.le_max hlimit
    have hfirst := hturns.le
    have hcount := hturns.gens_eq
    have hlength := hlast.length_le
    refine ⟨?_, ?_⟩
    · rw [gens_append, gens_append, gens_append, gens_append, ha.gens_eq (plain_limitTexts _),
        hb.gens_eq (plain_limitTexts _), hlast.gens_eq, hclosing.gens_eq plain_closing]
      omega
    · simp only [List.length_append, ha.length_eq, hb.length_eq, hturns.length_eq,
        hclosing.length_eq, limitTexts, List.length_cons, List.length_nil]
      omega

/-! ## Turns -/

/-- The turn after turns after which the game goes on is still allowed. -/
theorem QuietTurns.next_le (h : QuietTurns c seating 0 (startClocks c) events m clocks')
    (hlimit : c.maxTurns = some limit) : m + 1 ≤ max limit.toNat 1 :=
  (h.inTurn (budgeted_startClocks c)).1.le_max hlimit

/-- The turn counter can count them. -/
theorem QuietTurns.lt_size (h : QuietTurns c seating 0 (startClocks c) events m clocks')
    (hlimit : c.maxTurns = some limit) : m + 1 < UInt32.size := by
  have hle := h.next_le hlimit
  have hlt := limit.toNat_lt
  unfold UInt32.size
  omega

theorem TurnCourse.one_le_gens {r : Except GameError TurnEnd} (hb : Budgeted c clocks)
    (h : TurnCourse c seating n clocks events r) : 1 ≤ gens (requests events) := by
  have key (label : String) (x : Exchange) (later : List Event) :
      1 ≤ gens (requests (genEvents c seating n clocks label x ++ later)) := by
    rw [requests_append, requests_genEvents hb, List.singleton_append, gens_gen]
    exact Nat.le_add_left 1 _
  cases h with
  | timeout => exact key _ _ _
  | genFailed => exact List.append_nil (genEvents ..) ▸ key _ _ _
  | emptyMove => exact List.append_nil (genEvents ..) ▸ key _ _ _
  | noMove => exact key _ _ _
  | played => exact key _ _ _

theorem TurnCourse.length_moves_le {r : Except GameError TurnEnd}
    (h : TurnCourse c seating n clocks events r) : (moves events).length ≤ 1 := by
  cases h with
  | timeout => rw [moves_append, moves_genEvents]; exact Nat.zero_le _
  | genFailed => rw [moves_genEvents]; exact Nat.zero_le _
  | emptyMove => rw [moves_genEvents]; exact Nat.zero_le _
  | noMove => rw [moves_append, moves_genEvents]; exact Nat.zero_le _
  | played _ _ hmove =>
    rw [moves_append, moves_genEvents]
    cases hmove <;> exact Nat.le_of_ble_eq_true rfl

/-- The last turn of the rules reports a move. -/
theorem TurnCourse.length_moves_turnLimit {winner : Option Color}
    (h : TurnCourse c seating n clocks events (.ok (.over winner .turnLimit clocks'))) :
    (moves events).length = 1 := by
  cases h with
  | played _ _ hmove =>
    rw [moves_append, moves_genEvents]
    cases hmove with
    | lastTurn => rfl

theorem TurnsCourse.length_moves_le {r : Except GameError Verdict}
    (hlimit : c.maxTurns = some limit) (h : TurnsCourse c seating 0 (startClocks c) events r) :
    (moves events).length ≤ max limit.toNat 1 := by
  cases h with
  | counterFull hq hm => exact absurd hm (Nat.ne_of_lt (hq.lt_size hlimit))
  | failed hq _ hlast | ended hq _ hlast =>
    have hnext := hq.next_le hlimit
    have hone := hlast.length_moves_le
    obtain ⟨-, -, hlength⟩ := hq.reports
    rw [moves_append, List.length_append]
    omega

/-- The turns of a game ask for a move, and their failure is not that of the counter. -/
theorem TurnsCourse.counted {r : Except GameError Verdict} (hlimit : c.maxTurns = some limit)
    (h : TurnsCourse c seating 0 (startClocks c) events r) :
    1 ≤ gens (requests events) ∧ ∀ o, r ≠ .error (.overflow o) := by
  cases h with
  | counterFull hq hm => exact absurd hm (Nat.ne_of_lt (hq.lt_size hlimit))
  | failed hq _ hlast =>
    have hone := hlast.one_le_gens (hq.inTurn (budgeted_startClocks c)).2
    rw [requests_append, gens_append]
    refine ⟨by omega, fun o => ?_⟩
    cases hlast with
    | genFailed => nofun
    | emptyMove => nofun
    | played _ _ hmove => cases hmove <;> nofun
  | ended hq _ hlast =>
    have hone := hlast.one_le_gens (hq.inTurn (budgeted_startClocks c)).2
    rw [requests_append, gens_append]
    exact ⟨by omega, fun o => nofun⟩

/-! ## Games -/

/-- Of several requests that have to succeed the last one is the one that failed. -/
theorem AskCourse.refused {p : Player} {commands : List String} {e : GameError}
    (h : AskCourse p commands events (.error e)) : ∃ told r cause, requests events = told ++ [r] ∧
      told.length < commands.length ∧ r.exchange.result = .error cause ∧ e = .link cause := by
  generalize hr : (Except.error e : Except GameError Unit) = r at h
  induction h with
  | done => cases hr
  | failed hx =>
    cases hr
    exact ⟨[], _, _, rfl, Nat.succ_pos _, hx, rfl⟩
  | @answered command _ label x _ _ _ _ _ ih =>
    obtain ⟨told, r, cause, hrequests, hlength, hx, he⟩ := ih hr
    refine ⟨⟨p, command, none, x⟩ :: told, r, cause, ?_, Nat.succ_lt_succ hlength, hx, he⟩
    rw [requests_request, hrequests, List.cons_append]

/-- The limits that an engine has accepted are three requests. -/
theorem AskCourse.length_limits {p : Player} {s : ClockSettings}
    (h : AskCourse p (limitTexts s) events (.ok ())) : (requests events).length = 3 := by
  obtain ⟨word, hword, -, hall⟩ := h.prefix_asks
  rw [hall rfl, hword.length_eq]
  rfl

variable {reader : List Event → Player} {result : Except GameError GameRecord}

theorem GameCourse.length_moves_le (hlimit : c.maxTurns = some limit)
    (h : GameCourse c seating reader events result) :
    (moves events).length ≤ max limit.toNat 1 := by
  cases h with
  | limitsFailed ha => rw [ha.moves_eq]; exact Nat.zero_le _
  | otherLimitsFailed ha hb => rw [moves_append, ha.moves_eq, hb.moves_eq]; exact Nat.zero_le _
  | turnsFailed ha hb ht =>
    rw [moves_append, moves_append, ha.moves_eq, hb.moves_eq]
    exact ht.length_moves_le hlimit
  | historyFailed ha hb ht | boardFailed ha hb ht | recorded ha hb ht =>
    rw [moves_append, moves_append, moves_append, ha.moves_eq, hb.moves_eq, List.length_append]
    exact ht.length_moves_le hlimit

theorem GameCourse.counted (hlimit : c.maxTurns = some limit)
    (h : GameCourse c seating reader events result) (o : Overflow) :
    result ≠ .error (.overflow o) := by
  rintro rfl
  cases h with
  | limitsFailed ha | otherLimitsFailed _ ha =>
    obtain ⟨_, _, _, _, _, _, he⟩ := ha.refused
    cases he
  | turnsFailed _ _ ht => exact (ht.counted hlimit).2 o rfl

/-- A game without a request for a move has not come to its first turn. -/
theorem GameCourse.begun (hlimit : c.maxTurns = some limit)
    (h : GameCourse c seating reader events result) (hgens : gens (requests events) = 0) :
    ∃ told r e, requests events = told ++ [r] ∧ told.length < 6 ∧
      r.exchange.result = .error e ∧ result = .error (.link e) := by
  cases h with
  | limitsFailed ha =>
    obtain ⟨told, r, cause, hrequests, hlength, hx, rfl⟩ := ha.refused
    have hlength' : told.length < 3 := hlength
    exact ⟨told, r, cause, hrequests, by omega, hx, rfl⟩
  | otherLimitsFailed ha hb =>
    obtain ⟨told, r, cause, hrequests, hlength, hx, rfl⟩ := hb.refused
    have hthree := ha.length_limits
    have hlength' : told.length < 3 := hlength
    refine ⟨_ ++ told, r, cause, by rw [requests_append, hrequests, List.append_assoc], ?_, hx, rfl⟩
    rw [List.length_append]
    omega
  | turnsFailed _ _ ht | historyFailed _ _ ht | boardFailed _ _ ht | recorded _ _ ht =>
    have hone := (ht.counted hlimit).1
    simp only [requests_append, gens_append] at hgens
    omega

/-! ## Records -/

variable {record : GameRecord}

/-- A game that ends by the last turn of the rules reports a move for each turn. -/
theorem TurnsCourse.length_moves_turnLimit {v : Verdict}
    (h : TurnsCourse c seating 0 clocks events (.ok v)) (hv : v.termination = .turnLimit) :
    (moves events).length = v.turns.toNat := by
  cases h with
  | ended hq hm hlast =>
    obtain rfl : _ = Termination.turnLimit := hv
    have hone := hlast.length_moves_turnLimit
    obtain ⟨-, -, hlength⟩ := hq.reports
    rw [moves_append, List.length_append, hone, UInt32.toNat_ofNat_of_lt' hm]
    omega

/-- The requests of a game that ended with a record: those of its turns are between the limits and
the closing questions. -/
theorem GameCourse.exists_dialogue (h : GameCourse c seating reader events (.ok record)) :
    ∃ limits otherLimits turns last asked closing,
      Asks .a (limitTexts c.clocks.a) limits ∧ Asks .b (limitTexts c.clocks.b) otherLimits ∧
      InTurn (QuietTurn c seating) 1 record.turns.toNat turns ∧
      EndsBy c seating record.turns.toNat record.termination record.winner last ∧
      Asks asked ["history", "board"] closing ∧
      requests events = limits ++ otherLimits ++ (turns ++ last) ++ closing := by
  cases h with
  | @recorded ev ev' more _ _ history _ _ board _ ha hb ht =>
    obtain ⟨limits, hlimits, -, hall⟩ := ha.prefix_asks
    obtain ⟨otherLimits, hotherLimits, -, hall'⟩ := hb.prefix_asks
    obtain ⟨turns, last, hquiet, hends, hrequests, -⟩ := ht.verdict
    refine ⟨limits, otherLimits, turns, last, _, _, hlimits, hotherLimits, hquiet, hends,
      asks_closing (reader (ev ++ ev' ++ more)) history board, ?_⟩
    rw [requests_append, requests_append, requests_append, hall rfl, hall' rfl, hrequests]
    rfl

theorem GameCourse.turns_eq (h : GameCourse c seating reader events (.ok record)) :
    record.turns.toNat = gens (requests events) := by
  obtain ⟨limits, otherLimits, turns, last, asked, closing, ha, hb, hquiet, hends, hclosing, hall⟩ :=
    h.exists_dialogue
  have hcount := hquiet.gens_eq
  rw [hall, gens_append, gens_append, gens_append, gens_append, ha.gens_eq (plain_limitTexts _),
    hb.gens_eq (plain_limitTexts _), hends.lastTurn.gens_eq, hclosing.gens_eq plain_closing]
  omega

theorem GameCourse.exhausted (hlimit : c.maxTurns = some limit)
    (h : GameCourse c seating reader events (.ok record)) (hk : record.termination = .turnLimit) :
    record.turns.toNat = max limit.toNat 1 ∧
      (requests events).length = 4 * max limit.toNat 1 + 8 ∧
      (moves events).length = max limit.toNat 1 := by
  obtain ⟨limits, otherLimits, turns, last, asked, closing, ha, hb, hquiet, hends, hclosing, hall⟩ :=
    h.exists_dialogue
  have hlength := hquiet.length_eq
  rw [hk] at hends
  obtain ⟨hturns, hfour⟩ : record.turns.toNat = max limit.toNat 1 ∧ last.length = 4 := by
    generalize record.turns.toNat = n, record.winner = winner at hends ⊢
    cases hends with
    | turnLimit _ _ _ _ _ hmax hn =>
      rw [hlimit] at hmax
      cases hmax
      exact ⟨hn, rfl⟩
  refine ⟨hturns, ?_, ?_⟩
  · rw [hall]
    simp only [List.length_append, ha.length_eq, hb.length_eq, hclosing.length_eq, limitTexts,
      List.length_cons, List.length_nil]
    omega
  · rw [← hturns]
    cases h with
    | recorded ha hb ht =>
      rw [moves_append, moves_append, moves_append, ha.moves_eq, hb.moves_eq, List.length_append]
      exact ht.length_moves_turnLimit hk

end Turns

/-- **A game with a last turn is over by then.** Whatever two engines answer, it has at most as many
turns as the rules say, or one if they say none: so many requests for a move, four times as many
requests and eight more, and so many moves. The turn counter is not outgrown. -/
theorem ceiling_kept (engines : Engines α β) (s : States α β) (seating : Seating) (c : GameConfig)
    {limit : UInt32} (h : c.maxTurns = some limit) :
    WithinTurns (max limit.toNat 1) (play engines s seating c).events
      (play engines s seating c).result := by
  have hcourse := play_course engines s seating c
  obtain ⟨word, hword, hpre, -⟩ := hcourse.prefix_dialogue
  obtain ⟨hgens, hlength⟩ := hword.bounds h
  exact {
    gens_le := Nat.le_trans (List.Sublist.countP_le hpre.sublist) hgens
    length_requests_le := Nat.le_trans (List.IsPrefix.length_le hpre) hlength
    length_moves_le := hcourse.length_moves_le h
    counted := hcourse.counted h
    begun := hcourse.begun h
    turns_eq := fun _ hr => (hr ▸ hcourse).turns_eq
    exhausted := fun _ hr => (hr ▸ hcourse).exhausted h }

/-- Two engines without a result to declare. -/
def undecided : States Rehearsed Rehearsed := ⟨{ label := "a" }, { label := "b" }⟩

/-- Rules that name turn zero. -/
def noTurns : GameConfig := { maxTurns := some 0 }

/-- The record of the one turn that is played all the same. -/
def oneTurnRecord : GameRecord where
  seating := ⟨.black⟩
  winner := none
  termination := .turnLimit
  turns := 1
  history := "m1"
  board := "1 stones"
  remaining := ⟨610000, 600000⟩

theorem ceiling_kept_zero :
    noTurns.maxTurns = some 0 ∧
      (play ⟨Rehearsed.engine, Rehearsed.engine⟩ undecided ⟨.black⟩ noTurns).result =
        .ok oneTurnRecord ∧
      gens (requests (play ⟨Rehearsed.engine, Rehearsed.engine⟩ undecided ⟨.black⟩ noTurns).events) =
        1 ∧
      (requests (play ⟨Rehearsed.engine, Rehearsed.engine⟩ undecided ⟨.black⟩ noTurns).events).length =
        12 ∧
      (moves (play ⟨Rehearsed.engine, Rehearsed.engine⟩ undecided ⟨.black⟩ noTurns).events).length =
        1 := by
  have hresult : (play ⟨Rehearsed.engine, Rehearsed.engine⟩ undecided ⟨.black⟩ noTurns).result =
      .ok oneTurnRecord := rfl
  have hlimit : noTurns.maxTurns = some 0 := rfl
  have hkept := ceiling_kept ⟨Rehearsed.engine, Rehearsed.engine⟩ undecided ⟨.black⟩ noTurns hlimit
  obtain ⟨-, hlength, hmoves⟩ := hkept.exhausted _ hresult rfl
  exact ⟨hlimit, hresult, (hkept.turns_eq _ hresult).symm, hlength, hmoves⟩

end EngineDuel.Game

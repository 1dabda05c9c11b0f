import EngineDuel.Proofs.Game.Failures

/-!
# The moves that are reported

A move is reported for each pair of requests that tell both engines the same move and are answered
alike (`agreed`). `Told` says this of the events of a part of a game, and that the moves are those of
successive turns (`MovesFrom`).

1. The events of a turn report its move, or none if the engines did not come to agree on it
   (`MoveCourse.told`, `TurnCourse.told`).
2. So the events of a game report the moves of its first turns (`GameCourse.told`).
-/

namespace EngineDuel.Game

variable {τ : Type}

/-! ## Reported and agreed moves -/

/-- The move that an event reports. -/
def Event.move? : Event → Option Move
  | .move m => some m
  | _ => none

/-- The moves that events report, in order. -/
def moves (events : List Event) : List Move := events.filterMap Event.move?

/-- Who made the moves that events report, and which they are. -/
def reported (events : List Event) : List (Player × String) :=
  (moves events).map fun m => (m.player, m.token)

/-- Whether two requests tell both engines the same, and both answer alike. -/
def Request.agrees (r r' : Request) : Bool :=
  r'.player == r.player.other && r'.command == r.command &&
    match r.exchange.result, r'.exchange.result with
    | .ok answer, .ok answer' => answer == answer'
    | _, _ => false

/-- The moves on which both engines agreed, each with the player who was told it first. -/
def agreed : List Request → List (Player × String)
  | r :: r' :: rest =>
    match playToken? r.command with
    | some token =>
      if r.agrees r' then (r.player, token) :: agreed rest else agreed (r' :: rest)
    | none => agreed (r' :: rest)
  | _ => []

/-- The moves of the turns from number `n` on, one for each. -/
structure MovesFrom (seating : Seating) (n : ℕ) (ms : List Move) : Prop where
  numbers_eq : ms.map (·.turn.toNat) = List.range' n ms.length
  placed : ∀ m ∈ ms, m.color = turnColor m.turn.toNat ∧ m.player = seating.playerOf m.color

@[simp] theorem moves_append (before after : List Event) :
    moves (before ++ after) = moves before ++ moves after :=
  List.filterMap_append

theorem reported_append (before after : List Event) :
    reported (before ++ after) = reported before ++ reported after := by
  unfold reported
  rw [moves_append, List.map_append]

theorem agreed_cons {r : Request} (h : playToken? r.command = none) (rs : List Request) :
    agreed (r :: rs) = agreed rs := by
  cases rs with
  | nil => rfl
  | cons r' rs => simp only [agreed, h]

theorem agreed_append {rs : List Request} (h : ∀ r ∈ rs, playToken? r.command = none)
    (rs' : List Request) : agreed (rs ++ rs') = agreed rs' := by
  induction rs with
  | nil => rfl
  | cons r rs ih =>
    rw [List.cons_append, agreed_cons (h r List.mem_cons_self),
      ih fun r hr => h r (List.mem_cons_of_mem _ hr)]

/-- The moves of these events are those on which the engines agreed, whatever is asked later. -/
def Reports (events : List Event) : Prop :=
  ∀ rest, agreed (requests events ++ rest) = reported events ++ agreed rest

section Moves

variable {c : GameConfig} {seating : Seating} {n : ℕ} {clocks : ByPlayer Clock}
  {events events' : List Event}

theorem Reports.append (h : Reports events) (h' : Reports events') : Reports (events ++ events') := by
  intro rest
  rw [requests_append, List.append_assoc, h, h', reported_append, List.append_assoc]

theorem Reports.last (h : Reports events) (h' : agreed (requests events') = reported events') :
    agreed (requests (events ++ events')) = reported (events ++ events') := by
  rw [requests_append, h, h', reported_append]

theorem Reports.agreed_eq (h : Reports events) : agreed (requests events) = reported events := by
  have := h []
  rwa [List.append_nil, show agreed [] = [] from rfl, List.append_nil] at this

theorem movesFrom_nil : MovesFrom seating n [] := ⟨rfl, nofun⟩

theorem MovesFrom.append {ms ms' : List Move} (h : MovesFrom seating n ms)
    (h' : MovesFrom seating (n + ms.length) ms') : MovesFrom seating n (ms ++ ms') where
  numbers_eq := by
    rw [List.map_append, h.numbers_eq, h'.numbers_eq, List.length_append, List.range'_append_1]
  placed := by
    intro m hm
    rcases List.mem_append.mp hm with hm | hm
    · exact h.placed m hm
    · exact h'.placed m hm

/-! ## In a turn -/

theorem agreed_plays {token : String} {own others : Exchange} {answer : Option String}
    (hown : own.result = .ok answer) (hothers : others.result = .ok answer) (rest : List Request) :
    agreed (playRequests seating n token own others ++ rest) =
      (mover seating n, token) :: agreed rest := by
  have hagrees : (⟨mover seating n, "play " ++ token, none, own⟩ : Request).agrees
      ⟨(mover seating n).other, "play " ++ token, none, others⟩ = true := by
    simp [Request.agrees, hown, hothers]
  simp only [playRequests, List.cons_append, List.nil_append, agreed, playToken?_play, hagrees,
    if_true]

theorem movesFrom_moveEvent (hn : n < UInt32.size) (token : String) (elapsed : UInt64) :
    MovesFrom seating n (moves [moveEvent seating n clocks token elapsed]) where
  numbers_eq := by
    show [(UInt32.ofNat n).toNat] = [n]
    rw [UInt32.toNat_ofNat_of_lt' hn]
  placed := by
    intro m hm
    rw [List.mem_singleton.mp hm]
    refine ⟨?_, rfl⟩
    show turnColor n = turnColor (UInt32.ofNat n).toNat
    rw [UInt32.toNat_ofNat_of_lt' hn]

theorem agreed_of_not_agrees {token : String} {own others : Exchange}
    (h : ∀ answer, own.result = .ok answer → others.result ≠ .ok answer) :
    agreed (playRequests seating n token own others) = [] := by
  have hagrees : (⟨mover seating n, "play " ++ token, none, own⟩ : Request).agrees
      ⟨(mover seating n).other, "play " ++ token, none, others⟩ = false := by
    unfold Request.agrees
    rw [Bool.and_eq_false_iff]
    right
    split
    · rename_i answer answer' hown hothers
      refine beq_false_of_ne ?_
      rintro rfl
      exact h answer hown hothers
    · rfl
  simp [playRequests, agreed, hagrees, playToken?_play]

theorem reports_agreement {token l l' : String} {elapsed : UInt64} {own others : Exchange}
    {answer : Option String} (hown : own.result = .ok answer) (hothers : others.result = .ok answer) :
    Reports (playEvents seating n token l own l' others ++
      [moveEvent seating n clocks token elapsed]) :=
  agreed_plays hown hothers

/-- Events that ask for and tell no move. -/
theorem reports_of_plain (h : ∀ r ∈ requests events, playToken? r.command = none)
    (hmoves : moves events = []) : Reports events := by
  intro rest
  unfold reported
  rw [agreed_append h, hmoves]
  rfl

/-- What events report that end in `r`: the moves on which the engines agreed, one for each turn from
number `n` on. Without a failure both engines were told every move. -/
structure Told (seating : Seating) (n : ℕ) (events : List Event) (r : Except GameError τ) : Prop where
  agreed_eq : agreed (requests events) = reported events
  reports : ∀ x, r = .ok x → Reports events
  movesFrom : MovesFrom seating n (moves events)

theorem Reports.told {r : Except GameError τ} (h : Reports events)
    (hmoves : MovesFrom seating n (moves events)) : Told seating n events r :=
  ⟨h.agreed_eq, fun _ _ => h, hmoves⟩

theorem Reports.toldNone {r : Except GameError τ} (h : Reports events) (hmoves : moves events = []) :
    Told seating n events r := by
  refine h.told ?_
  rw [hmoves]
  exact movesFrom_nil

/-- More events after some that report the moves before turn `n`. -/
theorem Told.after {r : Except GameError τ} {m : ℕ} (h : Told seating n events' r)
    (hreports : Reports events) (hmoves : MovesFrom seating m (moves events))
    (hm : m + (moves events).length = n) : Told seating m (events ++ events') r where
  agreed_eq := hreports.last h.agreed_eq
  reports := fun x hr => hreports.append (h.reports x hr)
  movesFrom := by
    rw [moves_append]
    refine hmoves.append ?_
    rw [hm]
    exact h.movesFrom

theorem Told.afterNone {r : Except GameError τ} (h : Told seating n events' r)
    (hreports : Reports events) (hmoves : moves events = []) : Told seating n (events ++ events') r := by
  refine h.after hreports ?_ ?_
  · rw [hmoves]
    exact movesFrom_nil
  · rw [hmoves]
    rfl

/-- What the events of turn `n` report, once the mover has named a move. -/
theorem MoveCourse.told {token : String} {elapsed : UInt64} {r : Except GameError TurnEnd}
    (hn : n < UInt32.size) (h : MoveCourse c seating n clocks token elapsed events r) :
    Told seating n events r := by
  have hmove := @movesFrom_moveEvent seating n clocks hn token elapsed
  have hwhole : ∀ {l own l' others answer l'' time}, own.result = .ok answer →
      others.result = .ok answer → Reports (playEvents seating n token l own l' others ++
        [moveEvent seating n clocks token elapsed, timeEvent seating n clocks l'' time]) := by
    intro l own l' others answer l'' time hown hothers
    rw [List.append_cons]
    refine (reports_agreement hown hothers).append (reports_of_plain (fun r hr => ?_) rfl)
    rw [List.mem_singleton.mp hr]
    exact (plain_time _).2
  cases h with
  | ownFailed => exact ⟨rfl, fun _ => nofun, movesFrom_nil⟩
  | othersFailed _ hx =>
    refine ⟨agreed_of_not_agrees fun _ _ => ?_, fun _ => nofun, movesFrom_nil⟩
    rw [hx]
    nofun
  | mismatch hown hothers hne =>
    refine ⟨agreed_of_not_agrees fun answer hx hx' => ?_, fun _ => nofun, movesFrom_nil⟩
    have hanswer := Except.ok.inj (hown.symm.trans hx)
    have hanswer' := Except.ok.inj (hothers.symm.trans hx')
    exact hne (hanswer.trans hanswer'.symm)
  | declared hown hothers => exact (reports_agreement hown hothers).told hmove
  | timeFailed hown hothers _ => exact (hwhole hown hothers).told hmove
  | lastTurn hown hothers _ _ => exact (hwhole hown hothers).told hmove
  | goOn hown hothers _ _ => exact (hwhole hown hothers).told hmove

theorem moves_genEvents (l : String) (x : Exchange) : moves (genEvents c seating n clocks l x) = [] := by
  refine List.filterMap_eq_nil_iff.mpr fun e he => ?_
  rcases List.mem_cons.mp he with rfl | he
  · rfl
  · obtain ⟨line, -, rfl⟩ := List.mem_map.mp he
    rfl

theorem reports_genEvents (l : String) (x : Exchange) :
    Reports (genEvents c seating n clocks l x) := by
  refine reports_of_plain (fun r hr => ?_) (moves_genEvents l x)
  unfold genEvents at hr
  rw [requests_request, requests_diagnostics, List.mem_singleton] at hr
  rw [hr]
  exact playToken?_gen

/-- What the events of turn `n` report. -/
theorem TurnCourse.told {r : Except GameError TurnEnd} (hn : n < UInt32.size)
    (h : TurnCourse c seating n clocks events r) : Told seating n events r := by
  have hstop : ∀ p l, Reports [.terminate p l] := fun _ _ => reports_of_plain nofun rfl
  have hnote : ∀ line, Reports [.note line] := fun _ => reports_of_plain nofun rfl
  cases h with
  | timeout =>
    exact ((hstop _ _).toldNone rfl).afterNone (reports_genEvents _ _) (moves_genEvents _ _)
  | genFailed => exact (reports_genEvents _ _).toldNone (moves_genEvents _ _)
  | emptyMove => exact (reports_genEvents _ _).toldNone (moves_genEvents _ _)
  | noMove =>
    exact ((hnote _).toldNone rfl).afterNone (reports_genEvents _ _) (moves_genEvents _ _)
  | played _ _ hmove =>
    exact ((hmove.told hn).afterNone (hnote _) rfl).afterNone (reports_genEvents _ _)
      (moves_genEvents _ _)

/-- A turn after which the game goes on reports one move. -/
theorem TurnCourse.length_moves {clocks' : ByPlayer Clock}
    (h : TurnCourse c seating n clocks events (.ok (.goOn clocks'))) : (moves events).length = 1 := by
  cases h with
  | played _ _ hmove =>
    rw [moves_append, moves_genEvents]
    cases hmove with
    | goOn => rfl

/-! ## In a game -/

theorem QuietTurns.reports {m : ℕ} {clocks' : ByPlayer Clock}
    (h : QuietTurns c seating n clocks events m clocks') :
    Reports events ∧ MovesFrom seating (n + 1) (moves events) ∧ n + (moves events).length = m := by
  induction h with
  | none => exact ⟨reports_of_plain nofun rfl, movesFrom_nil, rfl⟩
  | next hn hturn _ ih =>
    have htold := hturn.told hn
    have hone := hturn.length_moves
    obtain ⟨hreports, hfrom, hlength⟩ := ih
    refine ⟨(htold.reports _ rfl).append hreports, ?_, ?_⟩
    · rw [moves_append]
      exact htold.movesFrom.append (by rwa [hone])
    · rw [moves_append, List.length_append]
      omega

theorem TurnsCourse.told {r : Except GameError Verdict}
    (h : TurnsCourse c seating 0 clocks events r) : Told seating 1 events r := by
  cases h with
  | counterFull hq _ =>
    obtain ⟨hreports, hfrom, -⟩ := hq.reports
    exact hreports.told hfrom
  | failed hq hm hlast =>
    obtain ⟨hreports, hfrom, hlength⟩ := hq.reports
    obtain ⟨hagreed, -, hmoves⟩ := (hlast.told hm).after hreports hfrom (by omega)
    exact ⟨hagreed, fun _ => nofun, hmoves⟩
  | ended hq hm hlast =>
    obtain ⟨hreports, hfrom, hlength⟩ := hq.reports
    obtain ⟨hagreed, hwhole, hmoves⟩ := (hlast.told hm).after hreports hfrom (by omega)
    exact ⟨hagreed, fun _ _ => hwhole _ rfl, hmoves⟩

theorem AskCourse.moves_eq {p : Player} {commands : List String} {r : Except GameError Unit}
    (h : AskCourse p commands events r) : moves events = [] := by
  induction h with
  | done => rfl
  | failed => rfl
  | answered _ _ ih => exact ih

theorem AskCourse.reports {p : Player} {commands : List String} {r : Except GameError Unit}
    (h : AskCourse p commands events r)
    (hplain : ∀ command ∈ commands, command ≠ "gen" ∧ playToken? command = none) :
    Reports events ∧ moves events = [] := by
  obtain ⟨word, hword, hpre, -⟩ := h.prefix_asks
  refine ⟨reports_of_plain (fun r hr => ?_) h.moves_eq, h.moves_eq⟩
  exact (hplain _ (hword.of_mem (hpre.subset hr)).2.1).2

/-- What the events of a game report. -/
theorem GameCourse.told {reader : List Event → Player} {r : Except GameError GameRecord}
    (h : GameCourse c seating reader events r) : Told seating 1 events r := by
  have hlimits : ∀ {p s events} {r : Except GameError Unit}, AskCourse p (limitTexts s) events r →
      Reports events ∧ moves events = [] :=
    fun h => h.reports (plain_limitTexts _)
  have hturns : ∀ {events events' turns : List Event} {r' : Except GameError Verdict},
      AskCourse .a (startClocks c).a.limitCommands events (.ok ()) →
      AskCourse .b (startClocks c).b.limitCommands events' (.ok ()) →
      TurnsCourse c seating 0 (startClocks c) turns r' →
      Told seating 1 (events ++ events' ++ turns) r' := by
    intro events events' turns r' hla hlb ht
    obtain ⟨hreports, hmoves⟩ := hlimits hla
    obtain ⟨hreports', hmoves'⟩ := hlimits hlb
    refine ht.told.afterNone (hreports.append hreports') ?_
    rw [moves_append, hmoves, hmoves']
    rfl
  -- the questions at the end
  have hclosing : ∀ {events closing : List Event} {v : Verdict}, Told seating 1 events (.ok v) →
      (∀ r ∈ requests closing, playToken? r.command = none) → moves closing = [] →
      Told seating 1 (events ++ closing) r := by
    intro events closing v htold hplain hnone
    refine ((htold.reports _ rfl).append (reports_of_plain hplain hnone)).told ?_
    rw [moves_append, hnone, List.append_nil]
    exact htold.movesFrom
  have hhistory : playToken? "history" = none := by decide
  have hboth : ∀ (reader : Player) (history board : Exchange), ∀ r ∈
      [(⟨reader, "history", none, history⟩ : Request), ⟨reader, "board", none, board⟩],
      playToken? r.command = none := by
    intro reader history board r hr
    rcases List.mem_cons.mp hr with rfl | hr
    · exact hhistory
    · rw [List.mem_singleton.mp hr]
      exact (by decide : playToken? "board" = none)
  cases h with
  | limitsFailed hla => exact (hlimits hla).1.toldNone (hlimits hla).2
  | otherLimitsFailed hla hlb =>
    refine ((hlimits hla).1.append (hlimits hlb).1).toldNone ?_
    rw [moves_append, (hlimits hla).2, (hlimits hlb).2]
    rfl
  | turnsFailed hla hlb ht =>
    obtain ⟨hagreed, -, hmoves⟩ := hturns hla hlb ht
    exact ⟨hagreed, fun _ => nofun, hmoves⟩
  | historyFailed hla hlb ht _ =>
    refine hclosing (hturns hla hlb ht) (fun r hr => ?_) rfl
    rw [List.mem_singleton.mp hr]
    exact hhistory
  | boardFailed hla hlb ht _ _ => exact hclosing (hturns hla hlb ht) (hboth _ _ _) rfl
  | recorded hla hlb ht _ _ => exact hclosing (hturns hla hlb ht) (hboth _ _ _) rfl

end Moves

end EngineDuel.Game

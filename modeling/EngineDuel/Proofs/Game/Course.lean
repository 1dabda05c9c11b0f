import EngineDuel.Proofs.Game.Parts
import Mathlib.Data.Nat.Notation
import Mathlib.Logic.Basic

/-!
# The courses of a game

What can happen in a game, whatever the engines answer. `TurnCourse` lists the courses of one turn,
`TurnsCourse` those of the turns that are left, and `GameCourse` those of a whole game, each as the
events and the result; turns are counted in natural numbers.

1. Every run of a turn is one of its courses (`playTurn_course`).
2. So are the turns that are left, by induction on how often the turn counter can still be raised
   (`playTurns_course`).
3. A game is the limits for A, those for B, the turns, and two questions to an engine that has not
   been stopped (`game_course`).
-/

namespace EngineDuel.Game

variable {α β τ υ : Type}

/-! ## The courses of a turn -/

/-- The colour that moves in turn `n`: black in the odd turns. -/
def turnColor (n : ℕ) : Color := if n % 2 = 1 then .black else .white

theorem turnColor_succ (n : ℕ) : turnColor (n + 1) = (turnColor n).flip := by
  unfold turnColor
  by_cases h : n % 2 = 1
  · rw [if_pos h, if_neg (by omega)]; rfl
  · rw [if_neg h, if_pos (by omega)]; rfl

/-- The player who moves in turn `n`: the one who has its colour. -/
def mover (seating : Seating) (n : ℕ) : Player :=
  if turnColor n = seating.colorOf .a then .a else .b

theorem mover_eq (seating : Seating) (n : ℕ) : mover seating n = seating.playerOf (turnColor n) := rfl

/-- What a request of a player's engine without a limit of its own shows. -/
abbrev asked (p : Player) (label command : String) (x : Exchange) : Event :=
  .request p label command none x

section Turn

variable (c : GameConfig) (seating : Seating) (n : ℕ)

/-- Both engines are told the move of turn `n`. -/
def playEvents (token label : String) (own : Exchange) (otherLabel : String) (others : Exchange) :
    List Event :=
  [asked (mover seating n) label ("play " ++ token) own,
    asked (mover seating n).other otherLabel ("play " ++ token) others]

/-- The move of turn `n`, with the mover's clock as it is. -/
def moveEvent (clocks : ByPlayer Clock) (token : String) (elapsed : UInt64) : Event :=
  .move ⟨.ofNat n, mover seating n, turnColor n, token, elapsed,
    (clocks.get (mover seating n)).remaining⟩

/-- The clocks after the mover of turn `n` has got its increment. -/
def credited (clocks : ByPlayer Clock) : ByPlayer Clock :=
  clocks.set (mover seating n) (clocks.get (mover seating n)).credit

/-- The mover of turn `n` is told the time that it has left. -/
def timeEvent (clocks : ByPlayer Clock) (label : String) (time : Exchange) : Event :=
  asked (mover seating n) label (clocks.get (mover seating n)).credit.totalCommand time

/-- The courses of turn `n` after the mover has named `token`, with the clocks charged already. -/
inductive MoveCourse (clocks : ByPlayer Clock) (token : String) (elapsed : UInt64) :
    List Event → Except GameError TurnEnd → Prop where
  | ownFailed {label own e} : own.result = .error e →
      MoveCourse clocks token elapsed
        [asked (mover seating n) label ("play " ++ token) own] (.error (.link e))
  | othersFailed {label own otherLabel others answer e} :
      own.result = .ok answer → others.result = .error e →
      MoveCourse clocks token elapsed (playEvents seating n token label own otherLabel others)
        (.error (.link e))
  /-- The engines declare different results. -/
  | mismatch {label own otherLabel others answer answer' name name'} :
      own.result = .ok answer → others.result = .ok answer' → answer ≠ answer' →
      MoveCourse clocks token elapsed (playEvents seating n token label own otherLabel others)
        (.error (.winnerMismatch (.ofNat n) token name answer name' answer'))
  /-- Both engines declare the same result. -/
  | declared {label own otherLabel others text} :
      own.result = .ok (some text) → others.result = .ok (some text) →
      MoveCourse clocks token elapsed
        (playEvents seating n token label own otherLabel others ++
          [moveEvent seating n clocks token elapsed])
        (.ok (.over (declaredWinner text) .declared clocks))
  | timeFailed {label own otherLabel others label' time e} :
      own.result = .ok none → others.result = .ok none → time.result = .error e →
      MoveCourse clocks token elapsed
        (playEvents seating n token label own otherLabel others ++
          [moveEvent seating n clocks token elapsed, timeEvent seating n clocks label' time])
        (.error (.link e))
  /-- Neither engine declares a result, and it was the last turn. -/
  | lastTurn {label own otherLabel others label' time answer} :
      own.result = .ok none → others.result = .ok none → time.result = .ok answer →
      c.isLastTurn (.ofNat n) = true →
      MoveCourse clocks token elapsed
        (playEvents seating n token label own otherLabel others ++
          [moveEvent seating n clocks token elapsed, timeEvent seating n clocks label' time])
        (.ok (.over none .turnLimit (credited seating n clocks)))
  /-- Neither engine declares a result, and the game goes on. -/
  | goOn {label own otherLabel others label' time answer} :
      own.result = .ok none → others.result = .ok none → time.result = .ok answer →
      c.isLastTurn (.ofNat n) = false →
      MoveCourse clocks token elapsed
        (playEvents seating n token label own otherLabel others ++
          [moveEvent seating n clocks token elapsed, timeEvent seating n clocks label' time])
        (.ok (.goOn (credited seating n clocks)))

/-- The mover of turn `n` is asked for a move, and its remarks are passed on. -/
def genEvents (clocks : ByPlayer Clock) (label : String) (x : Exchange) : List Event :=
  .request (mover seating n) label "gen" (some (c.moveLimit (clocks.get (mover seating n)))) x ::
    (x.diagnostics.filter c.echoes).map (.diagnostic (mover seating n))

/-- The clocks after the mover of turn `n` has thought about its move. -/
def charged (clocks : ByPlayer Clock) (x : Exchange) : ByPlayer Clock :=
  clocks.set (mover seating n) ((clocks.get (mover seating n)).consume x.took.millis)

/-- The courses of turn `n`. -/
inductive TurnCourse (clocks : ByPlayer Clock) : List Event → Except GameError TurnEnd → Prop where
  /-- The mover does not answer in time and is stopped. -/
  | timeout {label x engine command limit label'} :
      x.result = .error (.timeout engine command limit) →
      TurnCourse clocks
        (genEvents c seating n clocks label x ++ [.terminate (mover seating n) label'])
        (.ok (.over (some (turnColor n).flip) .timeout (charged seating n clocks x)))
  | genFailed {label x e} : x.result = .error e →
      (∀ engine command limit, e ≠ .timeout engine command limit) →
      TurnCourse clocks (genEvents c seating n clocks label x) (.error (.link e))
  | emptyMove {label x name} : x.result = .ok none →
      TurnCourse clocks (genEvents c seating n clocks label x)
        (.error (.emptyMove name (.ofNat n)))
  /-- The mover has no move. -/
  | noMove {label x line} : x.result = .ok (some "none") →
      TurnCourse clocks (genEvents c seating n clocks label x ++ [.note line])
        (.ok (.over (some (turnColor n).flip) .noLegalMove (charged seating n clocks x)))
  | played {label x line token events r} : x.result = .ok (some token) → token ≠ "none" →
      MoveCourse c seating n (charged seating n clocks x) token x.took.millis events r →
      TurnCourse clocks (genEvents c seating n clocks label x ++ .note line :: events) r

variable {c seating n} {engines : Engines α β} {clocks : ByPlayer Clock} {s s' : States α β}
  {events : List Event} {r : Except GameError TurnEnd}

theorem playMove_course {token : String} {elapsed : UInt64}
    (h : (playMove engines c seating (.ofNat n) (turnColor n) clocks token elapsed).Brings
      s events r s') :
    MoveCourse c seating n clocks token elapsed events r := by
  unfold playMove at h
  obtain ⟨label, own, ⟨e, he, rfl, rfl⟩ | ⟨answer, s₁, rest, hown, h₁, rfl⟩⟩ :=
    Part.Brings.of_require h
  · exact .ownFailed he
  obtain ⟨otherLabel, others, ⟨e, he, rfl, rfl⟩ | ⟨answer', s₂, rest, hothers, h₂, rfl⟩⟩ :=
    Part.Brings.of_require h₁
  · exact .othersFailed hown he
  by_cases hne : answer ≠ answer'
  · rw [if_pos hne] at h₂
    obtain ⟨rfl, rfl, -⟩ :=
      Part.Brings.of_fail (Part.Brings.of_labelOf (Part.Brings.of_labelOf h₂))
    exact .mismatch hown hothers hne
  rw [if_neg hne] at h₂
  obtain rfl : answer = answer' := not_not.mp hne
  obtain ⟨rest, h₃, rfl⟩ := Part.Brings.of_emit h₂
  cases answer with
  | some text =>
    obtain ⟨rfl, rfl, -⟩ := Part.Brings.of_pure h₃
    exact .declared hown hothers
  | none =>
    obtain ⟨label', time, ⟨e, he, rfl, rfl⟩ | ⟨answer, s₃, rest, htime, h₄, rfl⟩⟩ :=
      Part.Brings.of_require h₃
    · exact .timeFailed hown hothers he
    by_cases hlast : c.isLastTurn (.ofNat n) = true
    · rw [if_pos hlast] at h₄
      obtain ⟨rfl, rfl, -⟩ := Part.Brings.of_pure h₄
      exact .lastTurn hown hothers htime hlast
    · rw [if_neg hlast] at h₄
      obtain ⟨rfl, rfl, -⟩ := Part.Brings.of_pure h₄
      exact .goOn hown hothers htime (Bool.eq_false_iff.mpr hlast)

/-- **A turn.** Whatever the engines do, a turn takes one of its courses. -/
theorem playTurn_course
    (h : (playTurn engines c seating (.ofNat n) (turnColor n) clocks).Brings s events r s') :
    TurnCourse c seating n clocks events r := by
  unfold playTurn at h
  obtain ⟨rest, h₁, rfl⟩ := Part.Brings.of_ask h
  obtain ⟨rest, h₂, rfl⟩ := Part.Brings.of_passOn h₁
  split at h₂
  · rename_i hx
    obtain ⟨rest, h₃, rfl⟩ := Part.Brings.of_stop h₂
    obtain ⟨rfl, rfl, -⟩ := Part.Brings.of_pure h₃
    exact .timeout hx
  · rename_i e hne hx
    obtain ⟨rfl, rfl, -⟩ := Part.Brings.of_fail h₂
    rw [List.append_nil]
    exact .genFailed hx hne
  · rename_i hx
    obtain ⟨rfl, rfl, -⟩ := Part.Brings.of_fail (Part.Brings.of_labelOf h₂)
    rw [List.append_nil]
    exact .emptyMove hx
  · rename_i token hx
    obtain ⟨rest, h₃, rfl⟩ := Part.Brings.of_emit (Part.Brings.of_labelOf h₂)
    by_cases hnone : token = "none"
    · subst hnone
      rw [if_pos rfl] at h₃
      obtain ⟨rfl, rfl, -⟩ := Part.Brings.of_pure h₃
      exact .noMove hx
    · rw [if_neg hnone] at h₃
      exact .played hx hnone (playMove_course h₃)

end Turn

/-! ## The courses of the turns that are left -/

/-- Turns after which the game goes on: from `n` turns and some clocks to `m` turns and others. -/
inductive QuietTurns (c : GameConfig) (seating : Seating) :
    ℕ → ByPlayer Clock → List Event → ℕ → ByPlayer Clock → Prop where
  | none {n clocks} : QuietTurns c seating n clocks [] n clocks
  | next {n clocks events clocks' events' m clocks''} : n + 1 < UInt32.size →
      TurnCourse c seating (n + 1) clocks events (.ok (.goOn clocks')) →
      QuietTurns c seating (n + 1) clocks' events' m clocks'' →
      QuietTurns c seating n clocks (events ++ events') m clocks''

/-- The courses of a game after `n` turns: it goes on for some turns and then comes the last one. The
turn counter has 32 bits. -/
inductive TurnsCourse (c : GameConfig) (seating : Seating) (n : ℕ) (clocks : ByPlayer Clock) :
    List Event → Except GameError Verdict → Prop where
  | counterFull {events m clocks'} : QuietTurns c seating n clocks events m clocks' →
      m + 1 = UInt32.size →
      TurnsCourse c seating n clocks events (.error (.overflow .onAddition))
  | failed {events m clocks' last e} : QuietTurns c seating n clocks events m clocks' →
      m + 1 < UInt32.size → TurnCourse c seating (m + 1) clocks' last (.error e) →
      TurnsCourse c seating n clocks (events ++ last) (.error e)
  | ended {events m clocks' last winner termination clocks''} :
      QuietTurns c seating n clocks events m clocks' → m + 1 < UInt32.size →
      TurnCourse c seating (m + 1) clocks' last (.ok (.over winner termination clocks'')) →
      TurnsCourse c seating n clocks (events ++ last)
        (.ok ⟨winner, termination, .ofNat (m + 1), clocks''⟩)

section Turns

variable {c : GameConfig} {seating : Seating} {n : ℕ} {clocks : ByPlayer Clock}

/-- One more turn before the others. -/
theorem TurnsCourse.cons {clocks' : ByPlayer Clock} {events events' : List Event}
    {r : Except GameError Verdict} (hn : n + 1 < UInt32.size)
    (h : TurnCourse c seating (n + 1) clocks events (.ok (.goOn clocks')))
    (h' : TurnsCourse c seating (n + 1) clocks' events' r) :
    TurnsCourse c seating n clocks (events ++ events') r := by
  cases h' with
  | counterFull hq hm => exact .counterFull (.next hn h hq) hm
  | failed hq hm hlast => rw [← List.append_assoc]; exact .failed (.next hn h hq) hm hlast
  | ended hq hm hlast => rw [← List.append_assoc]; exact .ended (.next hn h hq) hm hlast

theorem ofNat_succ (n : ℕ) : UInt32.ofNat n + 1 = UInt32.ofNat (n + 1) := by
  rw [UInt32.ofNat_add]; rfl

/-- The turns that are left take one of their courses: by induction on how often the counter can
still be raised. -/
theorem playTurns_course {engines : Engines α β} {left : ℕ} {s s' : States α β}
    {events : List Event} {r : Except GameError Verdict} (hleft : n + left + 1 = UInt32.size)
    (h : (playTurns engines c seating left (.ofNat n) (turnColor (n + 1)) clocks).Brings
      s events r s') :
    TurnsCourse c seating n clocks events r := by
  induction left generalizing n clocks s events with
  | zero =>
    obtain ⟨rfl, rfl, -⟩ := Part.Brings.of_fail h
    exact .counterFull .none hleft
  | succ left ih =>
    unfold playTurns at h
    simp only [ofNat_succ] at h
    rcases Part.Brings.of_bind h with ⟨e, h₁, rfl⟩ | ⟨ending, s₁, before, rest, h₁, h₂, rfl⟩
    · exact .failed .none (by omega) (playTurn_course h₁)
    have hturn := playTurn_course h₁
    obtain ⟨winner, termination, clocks'⟩ | clocks' := ending
    · obtain ⟨rfl, rfl, -⟩ := Part.Brings.of_pure h₂
      rw [List.append_nil]
      exact .ended .none (by omega) hturn
    · simp only [← turnColor_succ] at h₂
      exact .cons (by omega) hturn (ih (by omega) h₂)

end Turns

/-! ## The states after the turns -/

section Tracks

variable {engines : Engines α β} {c : GameConfig} {seating : Seating}

theorem tracks_playMove (turn : UInt32) (color : Color) (clocks : ByPlayer Clock) (token : String)
    (elapsed : UInt64) :
    (playMove engines c seating turn color clocks token elapsed).Tracks engines := by
  unfold playMove
  refine tracks_bind (tracks_require _ _) fun own => tracks_bind (tracks_require _ _) fun others => ?_
  split
  · exact tracks_bind (tracks_labelOf _) fun _ => tracks_bind (tracks_labelOf _) fun _ =>
      tracks_fail _
  · refine tracks_bind (tracks_emit_move _) fun _ => ?_
    split
    · exact tracks_pure _
    · refine tracks_bind (tracks_require _ _) fun _ => ?_
      split <;> exact tracks_pure _

theorem tracks_playTurn (turn : UInt32) (color : Color) (clocks : ByPlayer Clock) :
    (playTurn engines c seating turn color clocks).Tracks engines := by
  unfold playTurn
  refine tracks_bind (tracks_ask _ _ _) fun x => tracks_bind (tracks_passOn _ _ _) fun _ => ?_
  split
  · exact tracks_bind (tracks_stop _) fun _ => tracks_pure _
  · exact tracks_fail _
  · exact tracks_bind (tracks_labelOf _) fun _ => tracks_fail _
  · refine tracks_bind (tracks_labelOf _) fun _ => tracks_bind (tracks_emit_note _) fun _ => ?_
    split
    · exact tracks_pure _
    · exact tracks_playMove _ _ _ _ _

theorem tracks_playTurns (left : ℕ) (turn : UInt32) (color : Color) (clocks : ByPlayer Clock) :
    (playTurns engines c seating left turn color clocks).Tracks engines := by
  induction left generalizing turn color clocks with
  | zero => exact tracks_fail _
  | succ left ih =>
    unfold playTurns
    refine tracks_bind (tracks_playTurn _ _ _) fun ending => ?_
    obtain ⟨winner, termination, clocks'⟩ | clocks' := ending
    · exact tracks_pure _
    · exact ih _ _ _

end Tracks

/-! ## The courses of a game -/

/-- The courses of several requests that all have to succeed. -/
inductive AskCourse (p : Player) : List String → List Event → Except GameError Unit → Prop where
  | done : AskCourse p [] [] (.ok ())
  | failed {command rest label x e} : x.result = .error e →
      AskCourse p (command :: rest) [asked p label command x] (.error (.link e))
  | answered {command rest label x answer events r} : x.result = .ok answer →
      AskCourse p rest events r →
      AskCourse p (command :: rest) (asked p label command x :: events) r

theorem requireAll_course {engines : Engines α β} {p : Player} {commands : List String}
    {s s' : States α β} {events : List Event} {r : Except GameError Unit}
    (h : (engines.requireAll p commands).Brings s events r s') : AskCourse p commands events r := by
  induction commands generalizing s events with
  | nil =>
    obtain ⟨rfl, rfl, -⟩ := Part.Brings.of_pure h
    exact .done
  | cons command rest ih =>
    unfold Engines.requireAll at h
    obtain ⟨label, x, ⟨e, he, rfl, rfl⟩ | ⟨answer, s₁, events', hx, h₁, rfl⟩⟩ :=
      Part.Brings.of_require h
    · exact .failed he
    · exact .answered hx (ih h₁)

/-- The clocks before the first turn. -/
def startClocks (c : GameConfig) : ByPlayer Clock := ⟨.start c.clocks.a, .start c.clocks.b⟩

/-- The record of a game with this verdict. -/
def recordOf (seating : Seating) (v : Verdict) (history board : Option String) : GameRecord where
  seating
  winner := v.winner
  termination := v.termination
  turns := v.turns
  history := history.getD ""
  board := board.getD ""
  remaining := ⟨v.clocks.a.remaining, v.clocks.b.remaining⟩

/-- The courses of a game. After the turns `reader` is asked, who may depend on what happened. -/
inductive GameCourse (c : GameConfig) (seating : Seating) (reader : List Event → Player) :
    List Event → Except GameError GameRecord → Prop where
  | limitsFailed {events e} :
      AskCourse .a (startClocks c).a.limitCommands events (.error e) →
      GameCourse c seating reader events (.error e)
  | otherLimitsFailed {events events' e} :
      AskCourse .a (startClocks c).a.limitCommands events (.ok ()) →
      AskCourse .b (startClocks c).b.limitCommands events' (.error e) →
      GameCourse c seating reader (events ++ events') (.error e)
  | turnsFailed {events events' turns e} :
      AskCourse .a (startClocks c).a.limitCommands events (.ok ()) →
      AskCourse .b (startClocks c).b.limitCommands events' (.ok ()) →
      TurnsCourse c seating 0 (startClocks c) turns (.error e) →
      GameCourse c seating reader (events ++ events' ++ turns) (.error e)
  | historyFailed {events events' turns v label history e} :
      AskCourse .a (startClocks c).a.limitCommands events (.ok ()) →
      AskCourse .b (startClocks c).b.limitCommands events' (.ok ()) →
      TurnsCourse c seating 0 (startClocks c) turns (.ok v) →
      history.result = .error e →
      GameCourse c seating reader (events ++ events' ++ turns ++
        [asked (reader (events ++ events' ++ turns)) label "history" history]) (.error (.link e))
  | boardFailed {events events' turns v label history answer label' board e} :
      AskCourse .a (startClocks c).a.limitCommands events (.ok ()) →
      AskCourse .b (startClocks c).b.limitCommands events' (.ok ()) →
      TurnsCourse c seating 0 (startClocks c) turns (.ok v) →
      history.result = .ok answer → board.result = .error e →
      GameCourse c seating reader (events ++ events' ++ turns ++
        [asked (reader (events ++ events' ++ turns)) label "history" history,
          asked (reader (events ++ events' ++ turns)) label' "board" board]) (.error (.link e))
  | recorded {events events' turns v label history answer label' board answer'} :
      AskCourse .a (startClocks c).a.limitCommands events (.ok ()) →
      AskCourse .b (startClocks c).b.limitCommands events' (.ok ()) →
      TurnsCourse c seating 0 (startClocks c) turns (.ok v) →
      history.result = .ok answer → board.result = .ok answer' →
      GameCourse c seating reader (events ++ events' ++ turns ++
        [asked (reader (events ++ events' ++ turns)) label "history" history,
          asked (reader (events ++ events' ++ turns)) label' "board" board])
        (.ok (recordOf seating v answer answer'))

/-- The player who is asked after some events: A, unless its engine reports to be stopped. -/
def Engines.reader (engines : Engines α β) (s : States α β) (events : List Event) : Player :=
  if engines.isTerminated (engines.after s events) .a then .b else .a

/-- **A game.** Whatever the engines do, a game takes one of its courses. -/
theorem game_course {engines : Engines α β} {c : GameConfig} {seating : Seating}
    {s s' : States α β} {events : List Event} {r : Except GameError GameRecord}
    (h : (game engines c seating).Brings s events r s') :
    GameCourse c seating (engines.reader s) events r := by
  unfold game at h
  rcases Part.Brings.of_bind h with ⟨e, ha, rfl⟩ | ⟨⟨⟩, s₁, ev₁, rest, ha, h₁, rfl⟩
  · exact .limitsFailed (requireAll_course ha)
  rcases Part.Brings.of_bind h₁ with ⟨e, hb, rfl⟩ | ⟨⟨⟩, s₂, ev₂, rest, hb, h₂, rfl⟩
  · exact .otherLimitsFailed (requireAll_course ha) (requireAll_course hb)
  rcases Part.Brings.of_bind h₂ with ⟨e, ht, rfl⟩ | ⟨v, s₃, ev₃, rest, ht, h₃, rfl⟩
  · rw [← List.append_assoc]
    exact .turnsFailed (requireAll_course ha) (requireAll_course hb) (playTurns_course rfl ht)
  have hs : s₃ = engines.after s (ev₁ ++ ev₂ ++ ev₃) := by
    rw [after_append, after_append, ← tracks_requireAll _ _ ha, ← tracks_requireAll _ _ hb,
      ← tracks_playTurns _ _ _ _ ht]
  have h₄ := Part.Brings.of_survivor h₃
  rw [hs] at h₄
  simp only [← List.append_assoc]
  obtain ⟨label, history, ⟨e, he, rfl, rfl⟩ | ⟨answer, s₄, rest, hh, h₅, rfl⟩⟩ :=
    Part.Brings.of_require h₄
  · exact .historyFailed (requireAll_course ha) (requireAll_course hb) (playTurns_course rfl ht) he
  obtain ⟨label', board, ⟨e, he, rfl, rfl⟩ | ⟨answer', s₅, rest, hboard, h₆, rfl⟩⟩ :=
    Part.Brings.of_require h₅
  · exact .boardFailed (requireAll_course ha) (requireAll_course hb) (playTurns_course rfl ht) hh he
  obtain ⟨rfl, rfl, -⟩ := Part.Brings.of_pure h₆
  exact .recorded (requireAll_course ha) (requireAll_course hb) (playTurns_course rfl ht) hh hboard

/-- To play a game is to run it. -/
theorem play_brings (engines : Engines α β) (s : States α β) (seating : Seating) (c : GameConfig) :
    (game engines c seating).Brings s (play engines s seating c).events
      (play engines s seating c).result (play engines s seating c).states := rfl

theorem play_course (engines : Engines α β) (s : States α β) (seating : Seating) (c : GameConfig) :
    GameCourse c seating (engines.reader s) (play engines s seating c).events
      (play engines s seating c).result :=
  game_course (play_brings engines s seating c)

/-! ## Who is stopped -/

@[simp] theorem stops_append (before after : List Event) :
    stops (before ++ after) = stops before ++ stops after :=
  List.filterMap_append

section Stops

variable {c : GameConfig} {seating : Seating} {n : ℕ} {clocks : ByPlayer Clock}
  {events : List Event}

@[simp] theorem stops_genEvents (label : String) (x : Exchange) :
    stops (genEvents c seating n clocks label x) = [] := by
  refine List.filterMap_eq_nil_iff.mpr fun e he => ?_
  rcases List.mem_cons.mp he with rfl | he
  · rfl
  · obtain ⟨line, -, rfl⟩ := List.mem_map.mp he
    rfl

theorem MoveCourse.stops_eq {token : String} {elapsed : UInt64} {r : Except GameError TurnEnd}
    (h : MoveCourse c seating n clocks token elapsed events r) : stops events = [] := by
  cases h <;> rfl

/-- A turn stops the mover if it ends by a timeout, and else nobody. -/
theorem TurnCourse.stops_eq {r : Except GameError TurnEnd}
    (h : TurnCourse c seating n clocks events r) :
    stops events =
      match r with
      | .ok (.over _ .timeout _) => [mover seating n]
      | _ => [] := by
  cases h with
  | timeout => rw [stops_append, stops_genEvents]; rfl
  | genFailed => rw [stops_genEvents]
  | emptyMove => rw [stops_genEvents]
  | noMove => rw [stops_append, stops_genEvents]; rfl
  | played _ _ hmove =>
    have hstops := hmove.stops_eq
    rw [stops_append, stops_genEvents]
    cases hmove <;> exact hstops

theorem QuietTurns.stops_eq {m : ℕ} {clocks' : ByPlayer Clock}
    (h : QuietTurns c seating n clocks events m clocks') : stops events = [] := by
  induction h with
  | none => rfl
  | next _ hturn _ ih => rw [stops_append, hturn.stops_eq, ih]; rfl

theorem AskCourse.stops_eq {p : Player} {commands : List String} {r : Except GameError Unit}
    (h : AskCourse p commands events r) : stops events = [] := by
  induction h with
  | done => rfl
  | failed => rfl
  | answered _ _ ih => exact ih

end Stops

end EngineDuel.Game

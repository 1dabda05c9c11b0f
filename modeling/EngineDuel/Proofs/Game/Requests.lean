import EngineDuel.Proofs.Game.Course

/-!
# The requests of a game

The requests that the events of a game show, and the forms that they take: the limits, the turns
after which the game goes on (`QuietTurn`), the last turn (`LastTurn`) and what is asked at the end
(`Asks`). A sequence of turns is `InTurn` if each has the form of its number.

A turn after which the game goes on is quiet, and any other turn is a beginning of a last turn
(`TurnCourse.quiet`, `TurnCourse.prefix_lastTurn`). The time for one move never changes, so a player
is always given the same limit to name one (`Budgeted`).
-/

namespace EngineDuel

/-- The longest wait for a move of a player: the time for one move and the margin, in milliseconds of
64 bits, or without a margin the longest wait for any answer. -/
def GameConfig.genLimit (c : GameConfig) (p : Player) : Duration :=
  match c.marginMs with
  | some margin =>
    .ofMillis (min ((c.clocks.get p).turnMs.toNat + margin.toNat) (UInt64.size - 1))
  | none => .ofMillis c.responseMs.toNat

namespace Game

/-- A request to a player's engine, and what it brought. -/
structure Request where
  player : Player
  command : String
  limit : Option Duration
  exchange : Exchange

/-- The request that an event shows. -/
def Event.request? : Event → Option Request
  | .request player _ command limit exchange => some ⟨player, command, limit, exchange⟩
  | _ => none

/-- The requests that events show, in order. -/
def requests (events : List Event) : List Request := events.filterMap Event.request?

@[simp] theorem requests_append (before after : List Event) :
    requests (before ++ after) = requests before ++ requests after :=
  List.filterMap_append

@[simp] theorem requests_request (p : Player) (label command : String) (limit : Option Duration)
    (x : Exchange) (events : List Event) :
    requests (.request p label command limit x :: events) =
      ⟨p, command, limit, x⟩ :: requests events := rfl

@[simp] theorem requests_diagnostics (p : Player) (lines : List String) :
    requests (lines.map (.diagnostic p)) = [] := by
  induction lines with
  | nil => rfl
  | cons line lines ih => exact ih

/-- What a player's engine is asked, and with which limits. -/
def commandsTo (p : Player) (rs : List Request) : List (String × Option Duration) :=
  rs.filterMap fun r => if r.player = p then some (r.command, r.limit) else none

theorem commandsTo_append (p : Player) (rs rs' : List Request) :
    commandsTo p (rs ++ rs') = commandsTo p rs ++ commandsTo p rs' :=
  List.filterMap_append

/-! ## The forms of requests -/

/-- These commands to one player's engine, without limits of their own. -/
def Asks (p : Player) (commands : List String) (rs : List Request) : Prop :=
  rs.map (fun r => (r.player, r.command, r.limit)) = commands.map fun command => (p, command, none)

/-- What an engine is told about its clock before a game. -/
def limitTexts (s : ClockSettings) : List String :=
  ["limit time total " ++ toString s.totalMs.toNat,
    "limit time increment " ++ toString s.incrementMs.toNat,
    "limit time turn " ++ toString s.turnMs.toNat]

section Forms

variable (c : GameConfig) (seating : Seating) (n : ℕ)

/-- The mover of turn `n` is asked for a move. -/
def genRequest (x : Exchange) : Request :=
  ⟨mover seating n, "gen", some (c.genLimit (mover seating n)), x⟩

/-- The move of turn `n` is told to the mover and then to the opponent. -/
def playRequests (token : String) (own others : Exchange) : List Request :=
  [⟨mover seating n, "play " ++ token, none, own⟩,
    ⟨(mover seating n).other, "play " ++ token, none, others⟩]

/-- The mover of turn `n` is told that it has `ms` milliseconds left. -/
def timeRequest (ms : UInt64) (time : Exchange) : Request :=
  ⟨mover seating n, "limit time total " ++ toString ms.toNat, none, time⟩

/-- The requests of turn `n` if all goes well and the game goes on: the mover names a move, both
engines play it without declaring a result, and the mover is told its time. It is not the last
turn of the rules. -/
inductive QuietTurn : List Request → Prop where
  | mk {x token own others ms time answer} : x.result = .ok (some token) → token ≠ "none" →
      own.result = .ok none → others.result = .ok none → time.result = .ok answer →
      (∀ limit, c.maxTurns = some limit → n < limit.toNat) →
      QuietTurn (genRequest c seating n x :: playRequests seating n token own others ++
        [timeRequest seating n ms time])

/-- The requests of turn `n` if it is the last: it may stop after the mover was asked, after both
engines were told its move, or not before its end. Only a move is told, and never `none`. -/
inductive LastTurn : List Request → Prop where
  | gen {x} : LastTurn [genRequest c seating n x]
  | plays {x token own others} : x.result = .ok (some token) → token ≠ "none" →
      LastTurn (genRequest c seating n x :: playRequests seating n token own others)
  | whole {x token own others ms time} : x.result = .ok (some token) → token ≠ "none" →
      LastTurn (genRequest c seating n x :: playRequests seating n token own others ++
        [timeRequest seating n ms time])

end Forms

/-- Turns from number `n` up to `m`, without it, each of the form `T` for its number. -/
inductive InTurn (T : ℕ → List Request → Prop) : ℕ → ℕ → List Request → Prop where
  | none {n} : InTurn T n n []
  | next {n m rs more} : T n rs → InTurn T (n + 1) m more → InTurn T n m (rs ++ more)

theorem QuietTurn.lastTurn {c : GameConfig} {seating : Seating} {n : ℕ} {rs : List Request}
    (h : QuietTurn c seating n rs) : LastTurn c seating n rs := by
  cases h with
  | mk hx hnone => exact .whole hx hnone

/-! ## The limit for a move -/

/-- The clocks of a game with these rules: the time for one move is what the rules say. -/
def Budgeted (c : GameConfig) (clocks : ByPlayer Clock) : Prop :=
  ∀ p, (clocks.get p).turnBudget = (c.clocks.get p).turnMs

section Budget

variable {c : GameConfig} {seating : Seating} {n : ℕ} {clocks : ByPlayer Clock}

theorem budgeted_startClocks (c : GameConfig) : Budgeted c (startClocks c) := by
  intro p; cases p <;> rfl

theorem Budgeted.set (h : Budgeted c clocks) (p : Player) {clock : Clock}
    (hclock : clock.turnBudget = (clocks.get p).turnBudget) : Budgeted c (clocks.set p clock) := by
  intro q
  by_cases hq : q = p
  · subst hq
    rw [ByPlayer.get_set, hclock, h]
  · rw [Player.eq_other_of_ne hq, ByPlayer.get_set_other, h]

theorem Budgeted.charged (h : Budgeted c clocks) (x : Exchange) :
    Budgeted c (charged seating n clocks x) := h.set _ rfl

theorem Budgeted.credited (h : Budgeted c clocks) : Budgeted c (credited seating n clocks) :=
  h.set _ rfl

theorem Budgeted.moveLimit_eq (h : Budgeted c clocks) (p : Player) :
    c.moveLimit (clocks.get p) = c.genLimit p := by
  have hp : (clocks.get p).turnBudget = (c.clocks.get p).turnMs := h p
  unfold GameConfig.genLimit GameConfig.moveLimit
  rw [hp]
  cases c.marginMs with
  | none => rfl
  | some margin =>
    dsimp only
    rw [toNat_addCapped]

end Budget

/-! ## The requests of a turn -/

theorem isLastTurn_iff {c : GameConfig} {n : ℕ} (hn : n < UInt32.size) :
    c.isLastTurn (.ofNat n) = true ↔ ∃ limit, c.maxTurns = some limit ∧ limit.toNat ≤ n := by
  unfold GameConfig.isLastTurn
  cases c.maxTurns with
  | none => simp
  | some limit =>
    simp only [decide_eq_true_eq, Option.some.injEq, exists_eq_left', UInt32.le_iff_toNat_le,
      UInt32.toNat_ofNat_of_lt' hn]

section Turns

variable {c : GameConfig} {seating : Seating} {n : ℕ} {clocks : ByPlayer Clock}
  {events : List Event}

theorem requests_genEvents (hb : Budgeted c clocks) (label : String) (x : Exchange) :
    requests (genEvents c seating n clocks label x) = [genRequest c seating n x] := by
  unfold genEvents genRequest
  rw [requests_request, requests_diagnostics, hb.moveLimit_eq]

/-- A turn after which the game goes on. -/
theorem TurnCourse.quiet {clocks' : ByPlayer Clock} (hb : Budgeted c clocks)
    (hn : n < UInt32.size) (h : TurnCourse c seating n clocks events (.ok (.goOn clocks'))) :
    QuietTurn c seating n (requests events) ∧ Budgeted c clocks' := by
  cases h with
  | played hx hnone hmove =>
    cases hmove with
    | goOn hown hothers htime hlast =>
      refine ⟨?_, (hb.charged _).credited⟩
      rw [requests_append, requests_genEvents hb]
      refine .mk hx hnone hown hothers htime fun limit hlimit => Nat.lt_of_not_le fun hle => ?_
      rw [(isLastTurn_iff hn).mpr ⟨limit, hlimit, hle⟩] at hlast
      cases hlast

/-- Any turn begins a last turn, and it is a whole last turn unless it fails. -/
theorem TurnCourse.prefix_lastTurn {r : Except GameError TurnEnd} (hb : Budgeted c clocks)
    (h : TurnCourse c seating n clocks events r) :
    ∃ word, LastTurn c seating n word ∧ requests events <+: word ∧
      (∀ ending, r = .ok ending → requests events = word) := by
  cases h with
  | timeout =>
    rw [requests_append, requests_genEvents hb]
    exact ⟨_, .gen, List.prefix_rfl, fun _ _ => rfl⟩
  | genFailed => rw [requests_genEvents hb]; exact ⟨_, .gen, List.prefix_rfl, fun _ _ => rfl⟩
  | emptyMove => rw [requests_genEvents hb]; exact ⟨_, .gen, List.prefix_rfl, fun _ _ => rfl⟩
  | noMove =>
    rw [requests_append, requests_genEvents hb]
    exact ⟨_, .gen, List.prefix_rfl, fun _ _ => rfl⟩
  | played hx hnone hmove =>
    rw [requests_append, requests_genEvents hb]
    cases hmove with
    | @ownFailed label own =>
      refine ⟨_, @LastTurn.plays c seating n _ _ own own hx hnone, ⟨_, rfl⟩, ?_⟩
      rintro _ ⟨⟩
    | othersFailed => exact ⟨_, .plays hx hnone, List.prefix_rfl, fun _ _ => rfl⟩
    | mismatch => exact ⟨_, .plays hx hnone, List.prefix_rfl, fun _ _ => rfl⟩
    | declared => exact ⟨_, .plays hx hnone, List.prefix_rfl, fun _ _ => rfl⟩
    | timeFailed => exact ⟨_, .whole hx hnone, List.prefix_rfl, fun _ _ => rfl⟩
    | lastTurn => exact ⟨_, .whole hx hnone, List.prefix_rfl, fun _ _ => rfl⟩
    | goOn => exact ⟨_, .whole hx hnone, List.prefix_rfl, fun _ _ => rfl⟩

/-- Turns after which the game goes on. -/
theorem QuietTurns.inTurn {m : ℕ} {clocks' : ByPlayer Clock} (hb : Budgeted c clocks)
    (h : QuietTurns c seating n clocks events m clocks') :
    InTurn (QuietTurn c seating) (n + 1) (m + 1) (requests events) ∧ Budgeted c clocks' := by
  induction h with
  | none => exact ⟨.none, hb⟩
  | next hn hturn _ ih =>
    obtain ⟨hquiet, hb'⟩ := hturn.quiet hb hn
    rw [requests_append]
    exact ⟨.next hquiet (ih hb').1, (ih hb').2⟩

/-- The turns of a game are quiet but for a beginning of a last turn, which is whole if the game
does not fail. -/
theorem TurnsCourse.prefix_turns {r : Except GameError Verdict} (hb : Budgeted c clocks)
    (h : TurnsCourse c seating n clocks events r) :
    ∃ m turns last word, InTurn (QuietTurn c seating) (n + 1) m turns ∧
      LastTurn c seating m word ∧ last <+: word ∧ requests events = turns ++ last ∧
      (∀ v, r = .ok v → last = word) := by
  cases h with
  | counterFull hq _ =>
    obtain ⟨hturns, -⟩ := hq.inTurn hb
    exact ⟨_, _, [], _, hturns, @LastTurn.gen c seating _ { result := .ok none },
      List.nil_prefix, (List.append_nil _).symm, fun _ => nofun⟩
  | failed hq _ hlast =>
    obtain ⟨hturns, hb'⟩ := hq.inTurn hb
    obtain ⟨word, hword, hpre, -⟩ := hlast.prefix_lastTurn hb'
    exact ⟨_, _, _, _, hturns, hword, hpre, requests_append _ _, fun _ => nofun⟩
  | ended hq _ hlast =>
    obtain ⟨hturns, hb'⟩ := hq.inTurn hb
    obtain ⟨word, hword, hpre, hwhole⟩ := hlast.prefix_lastTurn hb'
    exact ⟨_, _, _, _, hturns, hword, hpre, requests_append _ _, fun _ _ => hwhole _ rfl⟩

end Turns

end Game

end EngineDuel

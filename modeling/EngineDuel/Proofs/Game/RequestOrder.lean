import EngineDuel.Proofs.Game.Requests

/-!
# The order of the requests of a game

`requests_in_order`: the requests of a game begin a dialogue of fixed form, and are all of it if the
game ends with a record. A dialogue (`Dialogue`) is the limits for A, those for B, quiet turns, a
last turn, and two questions to one engine.

1. Each part of a game makes a beginning of its part of a dialogue (`AskCourse.prefix_asks`,
   `TurnsCourse.prefix_turns`), so the game does (`GameCourse.prefix_dialogue`).
2. In a turn both engines are told the same move, so whenever a player is asked for a move they have
   been told the same moves (`Dialogue.sameMoves`).
3. Only `gen` has a limit of its own, and it is the same for every move of a player
   (`Dialogue.proper`).
-/

namespace EngineDuel.Game

variable {α β : Type} {c : GameConfig} {seating : Seating}

/-! ## Dialogues -/

/-- The requests of a whole game. -/
inductive Dialogue (c : GameConfig) (seating : Seating) : List Request → Prop where
  | mk {limits otherLimits turns last closing n reader} :
      Asks .a (limitTexts c.clocks.a) limits → Asks .b (limitTexts c.clocks.b) otherLimits →
      InTurn (QuietTurn c seating) 1 n turns → LastTurn c seating n last →
      Asks reader ["history", "board"] closing →
      Dialogue c seating (limits ++ otherLimits ++ turns ++ last ++ closing)

theorem exists_asks (p : Player) (commands : List String) : ∃ word, Asks p commands word := by
  refine ⟨commands.map fun command => ⟨p, command, none, { result := .ok none }⟩, ?_⟩
  unfold Asks
  rw [List.map_map]
  rfl

theorem Asks.cons {p : Player} {command : String} {commands : List String} {word : List Request}
    (h : Asks p commands word) (x : Exchange) :
    Asks p (command :: commands) (⟨p, command, none, x⟩ :: word) :=
  congrArg ((p, command, none) :: ·) h

theorem asks_closing (reader : Player) (history board : Exchange) :
    Asks reader ["history", "board"]
      [⟨reader, "history", none, history⟩, ⟨reader, "board", none, board⟩] := rfl

/-- Requests that all have to succeed are made in order, up to the first that fails. -/
theorem AskCourse.prefix_asks {p : Player} {commands : List String} {events : List Event}
    {r : Except GameError Unit} (h : AskCourse p commands events r) :
    ∃ word, Asks p commands word ∧ requests events <+: word ∧
      (r = .ok () → requests events = word) := by
  induction h with
  | done => exact ⟨[], rfl, List.prefix_rfl, fun _ => rfl⟩
  | @failed command rest label x e _ =>
    obtain ⟨word, hword⟩ := exists_asks p rest
    exact ⟨_, hword.cons x, ⟨word, rfl⟩, nofun⟩
  | @answered command rest label x answer events r _ _ ih =>
    obtain ⟨word, hword, hpre, hall⟩ := ih
    refine ⟨_, hword.cons x, ?_, fun hr => ?_⟩
    · rw [requests_request]; exact (List.prefix_cons_inj _).mpr hpre
    · rw [requests_request, hall hr]

/-- Limits and turns without a failure: the questions at the end make a dialogue of them. -/
theorem TurnsCourse.dialogue {events events' turns : List Event} {v : Verdict}
    (ha : AskCourse .a (startClocks c).a.limitCommands events (.ok ()))
    (hb : AskCourse .b (startClocks c).b.limitCommands events' (.ok ()))
    (ht : TurnsCourse c seating 0 (startClocks c) turns (.ok v)) {reader : Player}
    {closing : List Request} (hclosing : Asks reader ["history", "board"] closing) :
    Dialogue c seating (requests (events ++ events' ++ turns) ++ closing) := by
  obtain ⟨limits, hlimits, -, hall⟩ := ha.prefix_asks
  obtain ⟨otherLimits, hotherLimits, -, hall'⟩ := hb.prefix_asks
  obtain ⟨m, quiet, last, word, hquiet, hword, -, hrequests, hwhole⟩ :=
    ht.prefix_turns (budgeted_startClocks c)
  rw [requests_append, requests_append, hall rfl, hall' rfl, hrequests, hwhole _ rfl,
    ← List.append_assoc]
  exact .mk hlimits hotherLimits hquiet hword hclosing

/-- The requests of a game begin a dialogue. -/
theorem GameCourse.prefix_dialogue {reader : List Event → Player} {events : List Event}
    {r : Except GameError GameRecord} (h : GameCourse c seating reader events r) :
    ∃ word, Dialogue c seating word ∧ requests events <+: word ∧
      (∀ record, r = .ok record → requests events = word) := by
  -- what a game that stops early does not come to
  obtain ⟨others, hothers⟩ := exists_asks .b (limitTexts c.clocks.b)
  have hgen : LastTurn c seating 1 [genRequest c seating 1 { result := .ok none }] := .gen
  obtain ⟨closing, hclosing⟩ := exists_asks .a ["history", "board"]
  cases h with
  | limitsFailed ha =>
    obtain ⟨limits, hlimits, hpre, -⟩ := ha.prefix_asks
    refine ⟨_, .mk hlimits hothers .none hgen hclosing, hpre.trans ?_, fun _ => nofun⟩
    simp only [List.append_assoc, List.prefix_append]
  | otherLimitsFailed ha hb =>
    obtain ⟨limits, hlimits, -, hall⟩ := ha.prefix_asks
    obtain ⟨otherLimits, hotherLimits, hpre, -⟩ := hb.prefix_asks
    refine ⟨_, .mk hlimits hotherLimits .none hgen hclosing, ?_, fun _ => nofun⟩
    simp only [requests_append, hall rfl, List.append_assoc, List.prefix_append_right_inj]
    exact hpre.trans (List.prefix_append _ _)
  | turnsFailed ha hb ht =>
    obtain ⟨limits, hlimits, -, hall⟩ := ha.prefix_asks
    obtain ⟨otherLimits, hotherLimits, -, hall'⟩ := hb.prefix_asks
    obtain ⟨m, quiet, last, word, hquiet, hword, hpre, hrequests, -⟩ :=
      ht.prefix_turns (budgeted_startClocks c)
    refine ⟨_, .mk hlimits hotherLimits hquiet hword hclosing, ?_, fun _ => nofun⟩
    simp only [requests_append, hall rfl, hall' rfl, hrequests, List.append_assoc,
      List.prefix_append_right_inj]
    exact hpre.trans (List.prefix_append _ _)
  | @historyFailed _ _ _ _ _ history _ ha hb ht _ =>
    obtain ⟨rest, hrest⟩ := exists_asks (reader _) ["board"]
    refine ⟨_, ht.dialogue ha hb (hrest.cons history), ?_, fun _ => nofun⟩
    rw [requests_append, List.prefix_append_right_inj]
    exact ⟨rest, rfl⟩
  | @boardFailed ev ev' turns _ _ history _ _ board _ ha hb ht _ _ =>
    have hd := ht.dialogue ha hb (asks_closing (reader (ev ++ ev' ++ turns)) history board)
    rw [requests_append]
    exact ⟨_, hd, List.prefix_rfl, fun _ => nofun⟩
  | @recorded ev ev' turns _ _ history _ _ board _ ha hb ht _ _ =>
    have hd := ht.dialogue ha hb (asks_closing (reader (ev ++ ev' ++ turns)) history board)
    rw [requests_append]
    exact ⟨_, hd, List.prefix_rfl, fun _ _ => rfl⟩

/-! ## The moves that the engines are told -/

/-- The move that a command tells. -/
def playToken? (command : String) : Option String :=
  (Text.dropPrefix? "play ".toList command.toList).map String.ofList

/-- The moves that a player's engine is told, in order. -/
def playTokens (p : Player) (rs : List Request) : List String :=
  rs.filterMap fun r => if r.player = p then playToken? r.command else none

/-- Whenever a player is asked for a move, both engines have been told the same moves. -/
def SameMoves (rs : List Request) : Prop :=
  ∀ before r after, rs = before ++ r :: after → r.command = "gen" →
    playTokens .a before = playTokens .b before

/-- What both engines are told leaves them with the same moves, no move is `none`, and only `gen` has
a limit of its own. -/
structure Even (c : GameConfig) (rs : List Request) : Prop where
  same : SameMoves rs
  balanced : playTokens .a rs = playTokens .b rs
  token : ∀ r ∈ rs, playToken? r.command ≠ some "none"
  limit : ∀ r ∈ rs, r.limit = if r.command = "gen" then some (c.genLimit r.player) else none

theorem playTokens_append (p : Player) (xs ys : List Request) :
    playTokens p (xs ++ ys) = playTokens p xs ++ playTokens p ys :=
  List.filterMap_append

theorem SameMoves.append {xs ys : List Request} (hx : SameMoves xs)
    (hxy : playTokens .a xs = playTokens .b xs) (hy : SameMoves ys) : SameMoves (xs ++ ys) := by
  intro before r after h hr
  rcases List.append_eq_append_iff.mp h with ⟨as, rfl, hys⟩ | ⟨bs, hxs, hbs⟩
  · rw [playTokens_append, playTokens_append, hxy, hy as r after hys hr]
  · cases bs with
    | nil => rw [List.append_nil] at hxs; rw [← hxs, hxy]
    | cons b bs =>
      cases hbs
      exact hx before r bs hxs hr

theorem SameMoves.of_prefix {xs ys : List Request} (h : SameMoves ys) (hpre : xs <+: ys) :
    SameMoves xs := by
  obtain ⟨rest, rfl⟩ := hpre
  rintro before r after rfl hr
  exact h before r (after ++ rest) (by rw [List.append_assoc, List.cons_append]) hr

theorem Even.append {xs ys : List Request} (hx : Even c xs) (hy : Even c ys) :
    Even c (xs ++ ys) where
  same := hx.same.append hx.balanced hy.same
  balanced := by rw [playTokens_append, playTokens_append, hx.balanced, hy.balanced]
  token := by
    intro r hr
    rcases List.mem_append.mp hr with hr | hr
    · exact hx.token r hr
    · exact hy.token r hr
  limit := by
    intro r hr
    rcases List.mem_append.mp hr with hr | hr
    · exact hx.limit r hr
    · exact hy.limit r hr

/-- Commands that neither ask for a move nor tell one. -/
theorem even_of_plain {rs : List Request}
    (h : ∀ r ∈ rs, r.command ≠ "gen" ∧ playToken? r.command = none ∧ r.limit = none) :
    Even c rs where
  same := by
    rintro before r after rfl hr
    exact absurd hr (h r (List.mem_append_right _ List.mem_cons_self)).1
  balanced := by
    have hnil : ∀ p, playTokens p rs = [] := by
      intro p
      refine List.filterMap_eq_nil_iff.mpr fun r hr => ?_
      rw [(h r hr).2.1, ite_self]
    rw [hnil, hnil]
  token := by intro r hr; rw [(h r hr).2.1]; nofun
  limit := by intro r hr; rw [(h r hr).2.2, if_neg (h r hr).1]

theorem Asks.of_mem {p : Player} {commands : List String} {rs : List Request}
    (h : Asks p commands rs) {r : Request} (hr : r ∈ rs) :
    r.player = p ∧ r.command ∈ commands ∧ r.limit = none := by
  have hmem : (r.player, r.command, r.limit) ∈ rs.map fun r => (r.player, r.command, r.limit) :=
    List.mem_map_of_mem hr
  rw [h] at hmem
  obtain ⟨command, hcommand, he⟩ := List.mem_map.mp hmem
  simp only [Prod.mk.injEq] at he
  obtain ⟨hp, hr, hlimit⟩ := he
  exact ⟨hp.symm, hr ▸ hcommand, hlimit.symm⟩

theorem Asks.even {p : Player} {commands : List String} {rs : List Request}
    (h : Asks p commands rs)
    (hplain : ∀ command ∈ commands, command ≠ "gen" ∧ playToken? command = none) : Even c rs := by
  refine even_of_plain fun r hr => ?_
  obtain ⟨-, hcommand, hlimit⟩ := h.of_mem hr
  exact ⟨(hplain _ hcommand).1, (hplain _ hcommand).2, hlimit⟩

/-! ### Commands -/

theorem playToken?_play (token : String) : playToken? ("play " ++ token) = some token := by
  simp [playToken?, Text.dropPrefix?]

theorem playToken?_gen : playToken? "gen" = none := by decide

theorem play_ne_gen (token : String) : "play " ++ token ≠ "gen" := by
  intro h
  simpa using congrArg String.toList h

theorem plain_time (text : String) :
    "limit time total " ++ text ≠ "gen" ∧ playToken? ("limit time total " ++ text) = none := by
  refine ⟨fun h => ?_, by simp [playToken?, Text.dropPrefix?]⟩
  simpa using congrArg String.toList h

theorem plain_limitTexts (s : ClockSettings) :
    ∀ command ∈ limitTexts s, command ≠ "gen" ∧ playToken? command = none := by
  intro command h
  simp only [limitTexts, List.mem_cons, List.not_mem_nil, or_false] at h
  rcases h with rfl | rfl | rfl
  · exact plain_time _
  all_goals
    refine ⟨fun h => ?_, by simp [playToken?, Text.dropPrefix?]⟩
    simpa using congrArg String.toList h

theorem plain_closing :
    ∀ command ∈ ["history", "board"], command ≠ "gen" ∧ playToken? command = none := by
  decide

/-- The commands of a turn. -/
inductive TurnCommand : String → Prop where
  | gen : TurnCommand "gen"
  | play (token : String) : TurnCommand ("play " ++ token)
  | time (ms : UInt64) : TurnCommand ("limit time total " ++ toString ms.toNat)

theorem LastTurn.turnCommand {n : ℕ} {rs : List Request} (h : LastTurn c seating n rs) :
    ∀ r ∈ rs, TurnCommand r.command := by
  have hplays : ∀ {token own others}, ∀ r ∈ playRequests seating n token own others,
      TurnCommand r.command := by
    intro token own others r hr
    simp only [playRequests, List.mem_cons, List.not_mem_nil, or_false] at hr
    rcases hr with rfl | rfl <;> exact .play token
  intro r hr
  cases h with
  | gen =>
    rw [List.mem_singleton.mp hr]
    exact .gen
  | plays =>
    rcases List.mem_cons.mp hr with rfl | hr
    · exact .gen
    · exact hplays r hr
  | @whole x token own others ms time =>
    rcases List.mem_append.mp hr with hr | hr
    · rcases List.mem_cons.mp hr with rfl | hr
      · exact .gen
      · exact hplays r hr
    · rw [List.mem_singleton.mp hr]
      exact .time ms

theorem InTurn.turnCommand {n m : ℕ} {rs : List Request}
    (h : InTurn (QuietTurn c seating) n m rs) : ∀ r ∈ rs, TurnCommand r.command := by
  induction h with
  | none => exact List.forall_mem_nil _
  | next hturn _ ih =>
    intro r hr
    rcases List.mem_append.mp hr with hr | hr
    · exact hturn.lastTurn.turnCommand r hr
    · exact ih r hr

theorem TurnsCourse.turnCommand {clocks : ByPlayer Clock} {events : List Event} {n : ℕ}
    {r : Except GameError Verdict} (hb : Budgeted c clocks)
    (h : TurnsCourse c seating n clocks events r) :
    ∀ q ∈ requests events, TurnCommand q.command := by
  obtain ⟨m, turns, last, word, hturns, hword, hpre, hrequests, -⟩ := h.prefix_turns hb
  intro q hq
  rw [hrequests] at hq
  rcases List.mem_append.mp hq with hq | hq
  · exact hturns.turnCommand q hq
  · exact hword.turnCommand q (hpre.subset hq)

/-! ### Turns -/

theorem even_gen {n : ℕ} (x : Exchange) : Even c [genRequest c seating n x] where
  same := by
    rintro (_ | ⟨r, before⟩) r' after h hr
    · rfl
    · cases before <;> cases h
  balanced := by
    unfold playTokens genRequest
    simp only [List.filterMap_cons, playToken?_gen, ite_self, List.filterMap_nil]
  token := by
    intro r hr
    rw [List.mem_singleton.mp hr]
    show playToken? "gen" ≠ some "none"
    rw [playToken?_gen]
    nofun
  limit := by
    intro r hr
    rw [List.mem_singleton.mp hr]
    exact (if_pos rfl).symm

theorem even_plays {n : ℕ} {token : String} (hnone : token ≠ "none") (own others : Exchange) :
    Even c (playRequests seating n token own others) where
  same := by
    intro before r after h hr
    have hmem : r ∈ playRequests seating n token own others := by
      rw [h]; exact List.mem_append_right _ List.mem_cons_self
    simp only [playRequests, List.mem_cons, List.not_mem_nil, or_false] at hmem
    rcases hmem with rfl | rfl <;> exact absurd hr (play_ne_gen token)
  balanced := by
    unfold playTokens playRequests
    cases mover seating n <;> simp [playToken?_play, Player.other]
  token := by
    intro r hr
    simp only [playRequests, List.mem_cons, List.not_mem_nil, or_false] at hr
    rcases hr with rfl | rfl <;> rw [playToken?_play] <;>
      exact fun h => hnone (Option.some.inj h)
  limit := by
    intro r hr
    simp only [playRequests, List.mem_cons, List.not_mem_nil, or_false] at hr
    rcases hr with rfl | rfl <;> exact (if_neg (play_ne_gen token)).symm

theorem even_time {n : ℕ} (ms : UInt64) (time : Exchange) :
    Even c [timeRequest seating n ms time] := by
  refine even_of_plain fun r hr => ?_
  rw [List.mem_singleton.mp hr]
  exact ⟨(plain_time _).1, (plain_time _).2, rfl⟩

theorem even_lastTurn {n : ℕ} {rs : List Request} (h : LastTurn c seating n rs) : Even c rs := by
  cases h with
  | gen => exact even_gen _
  | plays _ hnone => exact (even_gen _).append (even_plays hnone _ _)
  | whole _ hnone => exact ((even_gen _).append (even_plays hnone _ _)).append (even_time _ _)

theorem even_inTurn {n m : ℕ} {rs : List Request} (h : InTurn (QuietTurn c seating) n m rs) :
    Even c rs := by
  induction h with
  | none => exact even_of_plain nofun
  | next hrs _ ih => exact (even_lastTurn hrs.lastTurn).append ih

theorem Dialogue.even {rs : List Request} (h : Dialogue c seating rs) : Even c rs := by
  cases h with
  | mk ha hb hturns hlast hclosing =>
    exact ((((ha.even (plain_limitTexts _)).append (hb.even (plain_limitTexts _))).append
      (even_inTurn hturns)).append (even_lastTurn hlast)).append (hclosing.even plain_closing)

/-! ## The order of the requests -/

/-- **Request order.** The requests of a game begin a dialogue, and are all of it if the game ends
with a record. Whenever a player is asked for a move, both engines have been told the same moves;
no engine is told the move `none`; and every `gen` of a player has the same limit, while no other
request has one. -/
theorem requests_in_order (engines : Engines α β) (s : States α β) (seating : Seating)
    (c : GameConfig) :
    (∃ word, Dialogue c seating word ∧ requests (play engines s seating c).events <+: word ∧
        ∀ record, (play engines s seating c).result = .ok record →
          requests (play engines s seating c).events = word) ∧
      SameMoves (requests (play engines s seating c).events) ∧
      ∀ r ∈ requests (play engines s seating c).events, playToken? r.command ≠ some "none" ∧
        r.limit = if r.command = "gen" then some (c.genLimit r.player) else none := by
  obtain ⟨word, hword, hpre, hall⟩ := (play_course engines s seating c).prefix_dialogue
  refine ⟨⟨word, hword, hpre, hall⟩, hword.even.same.of_prefix hpre, fun r hr => ?_⟩
  exact ⟨hword.even.token r (hpre.subset hr), hword.even.limit r (hpre.subset hr)⟩

end EngineDuel.Game

import EngineDuel.Proofs.Game.Verdict

/-!
# The accounts of the clocks

`clocks_accounted`: whatever a game shows of a clock is what the account of that player comes to. An
account (`balance`) is kept in natural numbers and from the requests alone: each turn of the player
(`OwnTurn`) takes the time of its `gen` away, down to zero, and then earns the increment, up to
`2^64 - 1`, if it was quiet, that is if both engines were told a move and declared no result.

1. The turns of a player can be read off the requests part by part (`ownTurns_append`), for a turn
   is over before anything else is asked.
2. A turn keeps the clocks as the accounts say (`Kept`), charged or also credited, and what it
   shows on the way is right (`Tells`): this is `MoveCourse.accounts` and `TurnCourse.accounts`.
3. So do the turns of a game, by induction (`QuietTurns.accounts`), and the game
   (`GameCourse.accounts`). Which turns of a player were quiet follows from how the game ended
   (`GameCourse.ownTurns_eq`).
-/

namespace EngineDuel.Game

variable {α β : Type}

/-! ## Accounts -/

/-- A turn as it counts for its mover: how long it took to name a move, and whether both engines were
then told one and declared no result. -/
structure OwnTurn where
  took : Duration
  quiet : Bool

/-- What is left of some time once a turn is charged. -/
def OwnTurn.charge (t : OwnTurn) (left : ℕ) : ℕ := left - t.took.nanos / 1000000

/-- What is left of some time after a turn: a quiet turn earns the increment. -/
def OwnTurn.settle (increment left : ℕ) (t : OwnTurn) : ℕ :=
  if t.quiet then min (t.charge left + increment) (UInt64.size - 1) else t.charge left

/-- The account of a player after its turns. -/
def balance (s : ClockSettings) (turns : List OwnTurn) : ℕ :=
  turns.foldl (OwnTurn.settle s.incrementMs.toNat) s.totalMs.toNat

theorem balance_concat (s : ClockSettings) (turns : List OwnTurn) (t : OwnTurn) :
    balance s (turns ++ [t]) = t.settle s.incrementMs.toNat (balance s turns) :=
  List.foldl_append

/-! ## The turns of a player -/

/-- Whether a request tells a move and is answered without a result. -/
def Request.isQuietPlay (r : Request) : Bool :=
  (playToken? r.command).isSome &&
    match r.exchange.result with
    | .ok none => true
    | _ => false

/-- Whether two requests that tell a move come first, both answered without a result. -/
def playedQuietly : List Request → Bool
  | own :: others :: _ => own.isQuietPlay && others.isQuietPlay
  | _ => false

/-- The turns of a player that the requests show, in order. -/
def ownTurns (p : Player) : List Request → List OwnTurn
  | [] => []
  | r :: rest =>
    if r.command = "gen" ∧ r.player = p then
      ⟨r.exchange.took, playedQuietly rest⟩ :: ownTurns p rest
    else ownTurns p rest

/-- These requests do not begin in the middle of a turn. -/
def Fresh (rs : List Request) : Prop := ∀ r ∈ rs.head?, r.isQuietPlay = false

section OwnTurns

variable {p : Player} {rs more : List Request}

theorem fresh_nil : Fresh [] := nofun

theorem fresh_cons {r : Request} (h : playToken? r.command = none) : Fresh (r :: rs) := by
  intro r' hr'
  obtain rfl : r = r' := Option.some.inj hr'
  unfold Request.isQuietPlay
  rw [h]
  rfl

theorem Fresh.append (h : Fresh rs) (h' : Fresh more) : Fresh (rs ++ more) := by
  cases rs with
  | nil => exact h'
  | cons r rs => exact h

theorem playedQuietly_append (h : Fresh more) : playedQuietly (rs ++ more) = playedQuietly rs := by
  match rs, more, h with
  | [], [], _ => rfl
  | [], [_], _ => rfl
  | [], r :: _ :: _, h =>
    show (r.isQuietPlay && _) = false
    rw [h r rfl, Bool.false_and]
  | [_], [], _ => rfl
  | [own], r :: _, h =>
    show (own.isQuietPlay && r.isQuietPlay) = false
    rw [h r rfl, Bool.and_false]
  | _ :: _ :: _, _, _ => rfl

theorem ownTurns_append (h : Fresh more) :
    ownTurns p (rs ++ more) = ownTurns p rs ++ ownTurns p more := by
  induction rs with
  | nil => rfl
  | cons r rs ih =>
    simp only [List.cons_append, ownTurns, playedQuietly_append h, ih]
    split <;> rfl

theorem ownTurns_eq_nil (h : ∀ r ∈ rs, r.command ≠ "gen") : ownTurns p rs = [] := by
  induction rs with
  | nil => rfl
  | cons r rs ih =>
    rw [ownTurns, if_neg fun hr => h r List.mem_cons_self hr.1]
    exact ih fun r' hr' => h r' (List.mem_cons_of_mem _ hr')

/-- What is asked without a `gen` of the player does not count for it. -/
theorem ownTurns_append_of_others (hfresh : Fresh more)
    (h : ∀ r ∈ more, r.command = "gen" → r.player ≠ p) :
    ownTurns p (rs ++ more) = ownTurns p rs := by
  have hnil : ownTurns p more = [] := by
    clear hfresh
    induction more with
    | nil => rfl
    | cons r more ih =>
      rw [ownTurns, if_neg fun hr => h r List.mem_cons_self hr.1 hr.2]
      exact ih fun r' hr' => h r' (List.mem_cons_of_mem _ hr')
  rw [ownTurns_append hfresh, hnil, List.append_nil]

theorem playToken?_of_gen {r : Request} (h : r.command = "gen") : playToken? r.command = none := by
  rw [h]
  exact playToken?_gen

/-- A turn counts for its mover, and for nobody else. -/
theorem ownTurns_turn {r : Request} (hgen : r.command = "gen")
    (h : ∀ r' ∈ more, r'.command ≠ "gen") :
    ownTurns p (rs ++ r :: more) =
      ownTurns p rs ++ if r.player = p then [⟨r.exchange.took, playedQuietly more⟩] else [] := by
  rw [ownTurns_append (fresh_cons (playToken?_of_gen hgen)), ownTurns, ownTurns_eq_nil h]
  simp only [hgen, true_and]

theorem ownTurns_oneTurn {r : Request} (hgen : r.command = "gen")
    (h : ∀ r' ∈ more, r'.command ≠ "gen") :
    ownTurns p (r :: more) =
      if r.player = p then [⟨r.exchange.took, playedQuietly more⟩] else [] :=
  @ownTurns_turn p [] more r hgen h

end OwnTurns

/-! ## Clocks and accounts -/

/-- The clocks show what the accounts come to after these requests. -/
structure Kept (c : GameConfig) (rs : List Request) (clocks : ByPlayer Clock) : Prop where
  remaining_eq : ∀ p, (clocks.get p).remaining.toNat = balance (c.clocks.get p) (ownTurns p rs)
  increment_eq : ∀ p, (clocks.get p).increment = (c.clocks.get p).incrementMs

theorem get_set_of_ne {γ : Type} (v : ByPlayer γ) {p q : Player} (h : p ≠ q) (x : γ) :
    (v.set p x).get q = v.get q := by
  rw [Player.eq_other_of_ne h.symm, ByPlayer.get_set_other]

theorem ne_other (p : Player) : p ≠ p.other := by cases p <;> nofun

theorem toNat_consume (clock : Clock) (d : Duration) :
    (clock.consume d.millis).remaining.toNat = clock.remaining.toNat - d.nanos / 1000000 := by
  have hle : clock.remaining.toNat < UInt64.size := clock.remaining.toNat_lt
  show (subFloored clock.remaining d.millis).toNat = _
  rw [toNat_subFloored, Duration.toNat_millis]
  unfold Duration.wholeMillis UInt64.size at *
  omega

section Kept

variable {c : GameConfig} {seating : Seating} {n : ℕ} {rs more : List Request}
  {clocks : ByPlayer Clock} {x : Exchange}

/-- Before the first turn the accounts hold what the rules give. -/
theorem kept_startClocks (h : ∀ r ∈ rs, r.command ≠ "gen") : Kept c rs (startClocks c) where
  remaining_eq := by
    intro p
    rw [ownTurns_eq_nil h]
    cases p <;> rfl
  increment_eq := by intro p; cases p <;> rfl

/-- What is asked after a turn, or of nobody in particular, changes no account. -/
theorem Kept.append (hk : Kept c rs clocks) (hfresh : Fresh more)
    (h : ∀ r ∈ more, r.command ≠ "gen") : Kept c (rs ++ more) clocks where
  remaining_eq := by
    intro p
    rw [ownTurns_append hfresh, ownTurns_eq_nil h, List.append_nil, hk.remaining_eq]
  increment_eq := hk.increment_eq

/-- The account of the mover after its turn. -/
theorem balance_turn (p : Player) (h : ∀ r ∈ more, r.command ≠ "gen") :
    balance (c.clocks.get p) (ownTurns p (rs ++ genRequest c seating n x :: more)) =
      if mover seating n = p then
        OwnTurn.settle (c.clocks.get p).incrementMs.toNat (balance (c.clocks.get p) (ownTurns p rs))
          ⟨x.took, playedQuietly more⟩
      else balance (c.clocks.get p) (ownTurns p rs) := by
  rw [ownTurns_turn rfl h]
  show balance _ (_ ++ if mover seating n = p then [⟨x.took, playedQuietly more⟩] else []) = _
  by_cases hp : mover seating n = p
  · rw [if_pos hp, if_pos hp, balance_concat]
  · rw [if_neg hp, if_neg hp, List.append_nil]

/-- A turn that is not quiet is charged. -/
theorem Kept.charge (hk : Kept c rs clocks) (h : ∀ r ∈ more, r.command ≠ "gen")
    (hquiet : playedQuietly more = false) :
    Kept c (rs ++ genRequest c seating n x :: more) (charged seating n clocks x) where
  remaining_eq := by
    intro p
    rw [balance_turn p h]
    unfold charged
    by_cases hp : mover seating n = p
    · subst hp
      rw [ByPlayer.get_set, toNat_consume, hk.remaining_eq, if_pos rfl, OwnTurn.settle,
        if_neg (by rw [hquiet]; exact Bool.false_ne_true)]
      rfl
    · rw [get_set_of_ne _ hp, hk.remaining_eq, if_neg hp]
  increment_eq := by
    intro p
    unfold charged
    by_cases hp : mover seating n = p
    · subst hp
      rw [ByPlayer.get_set]
      exact hk.increment_eq _
    · rw [get_set_of_ne _ hp]
      exact hk.increment_eq p

/-- A quiet turn is charged and then credited. -/
theorem Kept.credit (hk : Kept c rs clocks) (h : ∀ r ∈ more, r.command ≠ "gen")
    (hquiet : playedQuietly more = true) :
    Kept c (rs ++ genRequest c seating n x :: more)
      (credited seating n (charged seating n clocks x)) := by
  -- the account charged only, as after the `gen` alone
  have hcharged := @Kept.charge c seating n rs [] clocks x hk (List.forall_mem_nil _) rfl
  have hmover := hcharged.remaining_eq (mover seating n)
  refine ⟨fun p => ?_, fun p => ?_⟩
  · rw [balance_turn p h]
    unfold credited
    by_cases hp : mover seating n = p
    · subst hp
      rw [balance_turn _ (List.forall_mem_nil _), if_pos rfl] at hmover
      rw [ByPlayer.get_set, if_pos rfl, OwnTurn.settle, if_pos hquiet]
      show (addCapped _ _).toNat = _
      rw [toNat_addCapped, hmover, hcharged.increment_eq]
      rfl
    · have hother := hcharged.remaining_eq p
      rw [balance_turn p (List.forall_mem_nil _), if_neg hp] at hother
      rw [get_set_of_ne _ hp, if_neg hp, hother]
  · unfold credited
    by_cases hp : mover seating n = p
    · subst hp
      rw [ByPlayer.get_set]
      exact hcharged.increment_eq _
    · rw [get_set_of_ne _ hp]
      exact hcharged.increment_eq p

end Kept

/-! ## What is shown -/

/-- What an event shows of a clock after these requests is right. A move shows the time of its own
turn, and what is left once that turn is charged. -/
def Event.TellsTime (c : GameConfig) (rs : List Request) : Event → Prop
  | .request p _ command _ _ => ∀ text, command = "limit time total " ++ text →
      text = toString (balance (c.clocks.get p) (ownTurns p rs))
  | .move m => ∃ earlier last, ownTurns m.player rs = earlier ++ [last] ∧
      m.elapsedMs.toNat = min (last.took.nanos / 1000000) (UInt64.size - 1) ∧
      m.remainingMs.toNat = last.charge (balance (c.clocks.get m.player) earlier)
  | _ => True

/-- What events show of the clocks after these requests is right. -/
def Tells (c : GameConfig) : List Request → List Event → Prop
  | _, [] => True
  | rs, e :: events => e.TellsTime c rs ∧ Tells c (rs ++ requests [e]) events

section Tells

variable {c : GameConfig} {seating : Seating} {n : ℕ} {rs : List Request} {clocks : ByPlayer Clock}
  {events more : List Event}

theorem Tells.append (h : Tells c rs events) (h' : Tells c (rs ++ requests events) more) :
    Tells c rs (events ++ more) := by
  induction events generalizing rs with
  | nil => rwa [show requests [] = [] from rfl, List.append_nil] at h'
  | cons e events ih =>
    refine ⟨h.1, ih h.2 ?_⟩
    rwa [List.append_assoc, ← requests_append]

/-- An event after others. -/
theorem Tells.tellsTime {before after : List Event} {e : Event}
    (h : Tells c rs (before ++ e :: after)) : e.TellsTime c (rs ++ requests before) := by
  induction before generalizing rs with
  | nil =>
    rw [show requests [] = [] from rfl, List.append_nil]
    exact h.1
  | cons e' before ih =>
    have := ih h.2
    rwa [List.append_assoc, ← requests_append] at this

theorem tells_of_forall (h : ∀ e ∈ events, ∀ rs, e.TellsTime c rs) : Tells c rs events := by
  induction events generalizing rs with
  | nil => trivial
  | cons e events ih =>
    exact ⟨h e List.mem_cons_self rs, ih fun e' he' => h e' (List.mem_cons_of_mem _ he')⟩

/-! ### Commands that tell no time -/

theorem untimed_gen (text : String) : "gen" ≠ "limit time total " ++ text := by
  intro h
  simpa using congrArg String.toList h

theorem untimed_play (token text : String) : "play " ++ token ≠ "limit time total " ++ text := by
  intro h
  simpa using congrArg String.toList h

theorem untimed_closing : ∀ command ∈ ["history", "board"], ∀ text,
    command ≠ "limit time total " ++ text := by
  intro command hcommand text h
  simp only [List.mem_cons, List.not_mem_nil, or_false] at hcommand
  rcases hcommand with rfl | rfl <;> simpa using congrArg String.toList h

/-- Of the limits before a game only the first tells the time that is left. -/
theorem limitTexts_tell {s : ClockSettings} {command text : String} (hc : command ∈ limitTexts s)
    (h : command = "limit time total " ++ text) : text = toString s.totalMs.toNat := by
  simp only [limitTexts, List.mem_cons, List.not_mem_nil, or_false] at hc
  rcases hc with rfl | rfl | rfl
  · exact ((String.append_right_inj _).mp h).symm
  all_goals
    have := congrArg String.toList h
    simp at this

end Tells

/-! ### Turns -/

/-- The clocks with which a turn ends. -/
def TurnEnd.clocks : TurnEnd → ByPlayer Clock
  | .over _ _ clocks => clocks
  | .goOn clocks => clocks

section Turns

variable {c : GameConfig} {seating : Seating} {n : ℕ} {rs : List Request} {clocks : ByPlayer Clock}
  {events : List Event}

theorem tells_genEvents (label : String) (x : Exchange) :
    Tells c rs (genEvents c seating n clocks label x) := by
  refine tells_of_forall fun e he rs => ?_
  rcases List.mem_cons.mp he with rfl | he
  · exact fun text h => absurd h (untimed_gen text)
  · obtain ⟨line, -, rfl⟩ := List.mem_map.mp he
    trivial

theorem tells_playEvents (token l : String) (own : Exchange) (l' : String) (others : Exchange) :
    Tells c rs (playEvents seating n token l own l' others) :=
  ⟨fun text h => absurd h (untimed_play token text),
    fun text h => absurd h (untimed_play token text), trivial⟩

theorem isQuietPlay_play (p : Player) (token : String) (limit : Option Duration) {x : Exchange}
    {answer : Option String} (hx : x.result = .ok answer) :
    (⟨p, "play " ++ token, limit, x⟩ : Request).isQuietPlay = answer.isNone := by
  unfold Request.isQuietPlay
  rw [playToken?_play, hx]
  cases answer <;> rfl

theorem playRequests_ne_gen (seating : Seating) (n : ℕ) (token : String) (own others : Exchange) :
    ∀ r ∈ playRequests seating n token own others, r.command ≠ "gen" := by
  intro r hr
  simp only [playRequests, List.mem_cons, List.not_mem_nil, or_false] at hr
  rcases hr with rfl | rfl <;> exact play_ne_gen token

theorem turnRequests_ne_gen (seating : Seating) (n : ℕ) (token : String) (own others : Exchange)
    (ms : UInt64) (time : Exchange) : ∀ r ∈ playRequests seating n token own others ++
      [timeRequest seating n ms time], r.command ≠ "gen" := by
  intro r hr
  rcases List.mem_append.mp hr with hr | hr
  · exact playRequests_ne_gen seating n token own others r hr
  · rw [List.mem_singleton.mp hr]
    exact (plain_time _).1

theorem playedQuietly_plays (seating : Seating) (n : ℕ) (token : String) {own others : Exchange}
    {answer : Option String} (hown : own.result = .ok answer) (hothers : others.result = .ok answer)
    (rest : List Request) :
    playedQuietly (playRequests seating n token own others ++ rest) = answer.isNone := by
  show (_ && _) = _
  rw [isQuietPlay_play _ _ _ hown, isQuietPlay_play _ _ _ hothers, Bool.and_self]

theorem Kept.quiet (hk : Kept c rs clocks) {x own others : Exchange} {token : String}
    (hown : own.result = .ok none) (hothers : others.result = .ok none) :
    Kept c (rs ++ genRequest c seating n x :: playRequests seating n token own others)
      (credited seating n (charged seating n clocks x)) := by
  have hquiet := playedQuietly_plays seating n token hown hothers []
  rw [List.append_nil] at hquiet
  exact hk.credit (playRequests_ne_gen seating n token own others) hquiet

/-- The move of a turn shows how long it took, and the mover's clock charged but not credited. -/
theorem tells_moveEvent (hk : Kept c rs clocks) (token : String) (x own others : Exchange) :
    Tells c (rs ++ genRequest c seating n x :: playRequests seating n token own others)
      [moveEvent seating n (charged seating n clocks x) token x.took.millis] := by
  have hcharged := @Kept.charge c seating n rs [] clocks x hk (List.forall_mem_nil _) rfl
  have hmover := hcharged.remaining_eq (mover seating n)
  rw [balance_turn _ (List.forall_mem_nil _), if_pos rfl] at hmover
  refine ⟨⟨ownTurns (mover seating n) rs,
    ⟨x.took, playedQuietly (playRequests seating n token own others)⟩, ?_, Duration.toNat_millis _,
    hmover⟩, trivial⟩
  show ownTurns (mover seating n) _ = _
  rw [ownTurns_turn rfl (playRequests_ne_gen _ _ _ _ _)]
  exact congrArg (ownTurns (mover seating n) rs ++ ·) (if_pos rfl)

/-- After a quiet turn the mover is told its time, charged and credited. -/
theorem tells_timeEvent (hk : Kept c rs clocks) {token : String} {x own others : Exchange}
    (hown : own.result = .ok none) (hothers : others.result = .ok none) (l : String)
    (time : Exchange) :
    Tells c (rs ++ genRequest c seating n x :: playRequests seating n token own others)
      [timeEvent seating n (charged seating n clocks x) l time] := by
  refine ⟨fun text h => ?_, trivial⟩
  have hquiet : Kept c (rs ++ genRequest c seating n x :: playRequests seating n token own others)
      (credited seating n (charged seating n clocks x)) := hk.quiet hown hothers
  have hmover := hquiet.remaining_eq (mover seating n)
  unfold credited at hmover
  rw [ByPlayer.get_set] at hmover
  rw [← (String.append_right_inj _).mp h, hmover]

/-- Both engines are told the move, and it is shown. -/
theorem tells_moved (hk : Kept c rs clocks) (token : String) (x own others : Exchange)
    (l l' : String) : Tells c (rs ++ [genRequest c seating n x])
      (playEvents seating n token l own l' others ++
        [moveEvent seating n (charged seating n clocks x) token x.took.millis]) := by
  refine (tells_playEvents _ _ _ _ _).append ?_
  rw [List.append_assoc]
  exact tells_moveEvent hk token x own others

/-- After a quiet turn the mover is told its time, too. -/
theorem tells_timed (hk : Kept c rs clocks) {token : String} {x own others : Exchange}
    (hown : own.result = .ok none) (hothers : others.result = .ok none) (l l' l'' : String)
    (time : Exchange) : Tells c (rs ++ [genRequest c seating n x])
      (playEvents seating n token l own l' others ++
        [moveEvent seating n (charged seating n clocks x) token x.took.millis,
          timeEvent seating n (charged seating n clocks x) l'' time]) := by
  rw [List.append_cons (playEvents ..)]
  refine (tells_moved hk token x own others l l').append ?_
  rw [List.append_assoc]
  exact tells_timeEvent hk hown hothers l'' time

theorem Kept.quietTurn (hk : Kept c rs clocks) {token : String} {x own others : Exchange}
    (hown : own.result = .ok none) (hothers : others.result = .ok none) (ms : UInt64)
    (time : Exchange) :
    Kept c (rs ++ genRequest c seating n x ::
        (playRequests seating n token own others ++ [timeRequest seating n ms time]))
      (credited seating n (charged seating n clocks x)) := by
  rw [← List.cons_append, ← List.append_assoc]
  refine Kept.append (hk.quiet hown hothers) (fresh_cons (plain_time _).2) fun r hr => ?_
  rw [List.mem_singleton.mp hr]
  exact (plain_time _).1

/-- The rest of turn `n` shows the mover's time as its account says, and leaves the clocks so. -/
theorem MoveCourse.accounts {token : String} {x : Exchange} {r : Except GameError TurnEnd}
    (hk : Kept c rs clocks)
    (h : MoveCourse c seating n (charged seating n clocks x) token x.took.millis events r) :
    Tells c (rs ++ [genRequest c seating n x]) events ∧
      ∀ ending, r = .ok ending →
        Kept c (rs ++ genRequest c seating n x :: requests events) ending.clocks := by
  cases h with
  | ownFailed =>
    exact ⟨⟨fun text h => absurd h (untimed_play token text), trivial⟩, fun _ => nofun⟩
  | othersFailed => exact ⟨tells_playEvents _ _ _ _ _, fun _ => nofun⟩
  | mismatch => exact ⟨tells_playEvents _ _ _ _ _, fun _ => nofun⟩
  | declared hown hothers =>
    refine ⟨tells_moved hk _ _ _ _ _ _, ?_⟩
    rintro _ ⟨⟩
    have hquiet := playedQuietly_plays seating n token hown hothers []
    rw [List.append_nil] at hquiet
    exact hk.charge (playRequests_ne_gen seating n token _ _) hquiet
  | timeFailed hown hothers _ => exact ⟨tells_timed hk hown hothers _ _ _ _, fun _ => nofun⟩
  | lastTurn hown hothers _ _ =>
    refine ⟨tells_timed hk hown hothers _ _ _ _, ?_⟩
    rintro _ ⟨⟩
    exact hk.quietTurn hown hothers _ _
  | goOn hown hothers _ _ =>
    refine ⟨tells_timed hk hown hothers _ _ _ _, ?_⟩
    rintro _ ⟨⟩
    exact hk.quietTurn hown hothers _ _

/-- Turn `n` shows the mover's time as its account says, and leaves the clocks so. -/
theorem TurnCourse.accounts {r : Except GameError TurnEnd} (hb : Budgeted c clocks)
    (hk : Kept c rs clocks) (h : TurnCourse c seating n clocks events r) :
    Tells c rs events ∧ ∀ ending, r = .ok ending → Kept c (rs ++ requests events) ending.clocks := by
  have hcharged : ∀ x, Kept c (rs ++ [genRequest c seating n x]) (charged seating n clocks x) :=
    fun x => hk.charge (List.forall_mem_nil _) rfl
  cases h with
  | timeout =>
    refine ⟨(tells_genEvents _ _).append ⟨trivial, trivial⟩, ?_⟩
    rintro _ ⟨⟩
    rw [requests_append, requests_genEvents hb]
    exact hcharged _
  | genFailed => exact ⟨tells_genEvents _ _, fun _ => nofun⟩
  | emptyMove => exact ⟨tells_genEvents _ _, fun _ => nofun⟩
  | noMove =>
    refine ⟨(tells_genEvents _ _).append ⟨trivial, trivial⟩, ?_⟩
    rintro _ ⟨⟩
    rw [requests_append, requests_genEvents hb]
    exact hcharged _
  | played _ _ hmove =>
    obtain ⟨htells, hkept⟩ := hmove.accounts hk
    rw [requests_append, requests_genEvents hb]
    refine ⟨(tells_genEvents _ _).append ⟨trivial, ?_⟩, hkept⟩
    rw [requests_genEvents hb, show requests [Event.note _] = [] from rfl, List.append_nil]
    exact htells

theorem QuietTurns.accounts {m : ℕ} {clocks' : ByPlayer Clock} (hb : Budgeted c clocks)
    (hk : Kept c rs clocks) (h : QuietTurns c seating n clocks events m clocks') :
    Tells c rs events ∧ Kept c (rs ++ requests events) clocks' := by
  induction h generalizing rs with
  | none => exact ⟨trivial, by rwa [show requests [] = [] from rfl, List.append_nil]⟩
  | next hn hturn _ ih =>
    obtain ⟨htells, hkept⟩ := hturn.accounts hb hk
    obtain ⟨htells', hkept'⟩ := ih (hturn.quiet hb hn).2 (hkept _ rfl)
    refine ⟨htells.append htells', ?_⟩
    rwa [requests_append, ← List.append_assoc]

/-- The turns of a game show the time as the accounts say, and leave the clocks so. -/
theorem TurnsCourse.accounts {r : Except GameError Verdict} (hb : Budgeted c clocks)
    (hk : Kept c rs clocks) (h : TurnsCourse c seating n clocks events r) :
    Tells c rs events ∧ ∀ v, r = .ok v → Kept c (rs ++ requests events) v.clocks := by
  cases h with
  | counterFull hq _ => exact ⟨(hq.accounts hb hk).1, fun _ => nofun⟩
  | failed hq _ hlast =>
    obtain ⟨htells, hkept⟩ := hq.accounts hb hk
    exact ⟨htells.append (hlast.accounts (hq.inTurn hb).2 hkept).1, fun _ => nofun⟩
  | ended hq _ hlast =>
    obtain ⟨htells, hkept⟩ := hq.accounts hb hk
    obtain ⟨htells', hkept'⟩ := hlast.accounts (hq.inTurn hb).2 hkept
    refine ⟨htells.append htells', ?_⟩
    rintro _ ⟨⟩
    rw [requests_append, ← List.append_assoc]
    exact hkept' _ rfl

end Turns

/-! ## Games -/

section Games

variable {c : GameConfig} {seating : Seating} {rs : List Request} {events : List Event}

/-- The limits before a game. -/
theorem AskCourse.tells {p : Player} {commands : List String} {r : Except GameError Unit}
    (h : AskCourse p commands events r) (hrs : ∀ r ∈ rs, r.command ≠ "gen")
    (hcommands : ∀ command ∈ commands, command ∈ limitTexts (c.clocks.get p)) :
    Tells c rs events := by
  have htells : ∀ {command rs label x}, (∀ r ∈ rs, r.command ≠ "gen") →
      command ∈ limitTexts (c.clocks.get p) → (asked p label command x).TellsTime c rs := by
    intro command rs label x hrs hcommand text htext
    rw [ownTurns_eq_nil hrs]
    exact limitTexts_tell hcommand htext
  induction h generalizing rs with
  | done => trivial
  | failed => exact ⟨htells hrs (hcommands _ List.mem_cons_self), trivial⟩
  | @answered command rest label x answer events r _ _ ih =>
    refine ⟨htells hrs (hcommands _ List.mem_cons_self), ih (fun r hr => ?_) fun command hmem =>
      hcommands command (List.mem_cons_of_mem _ hmem)⟩
    rcases List.mem_append.mp hr with hr | hr
    · exact hrs r hr
    · rw [List.mem_singleton.mp hr]
      exact (plain_limitTexts _ _ (hcommands _ List.mem_cons_self)).1

theorem AskCourse.plain {p : Player} {commands : List String} {r : Except GameError Unit}
    (h : AskCourse p commands events r)
    (hplain : ∀ command ∈ commands, command ≠ "gen" ∧ playToken? command = none) :
    ∀ r ∈ requests events, r.command ≠ "gen" ∧ playToken? r.command = none := by
  obtain ⟨word, hword, hpre, -⟩ := h.prefix_asks
  exact fun r hr => hplain _ (hword.of_mem (hpre.subset hr)).2.1

/-- The limits of both players are shown, and no account has changed. -/
theorem limits_accounts {events' : List Event} {r r' : Except GameError Unit}
    (ha : AskCourse .a (startClocks c).a.limitCommands events r)
    (hb : AskCourse .b (startClocks c).b.limitCommands events' r') :
    Tells c [] (events ++ events') ∧ Kept c (requests (events ++ events')) (startClocks c) := by
  have hplain : ∀ {p s events} {r : Except GameError Unit}, AskCourse p (limitTexts s) events r →
      ∀ r ∈ requests events, r.command ≠ "gen" :=
    fun h r hr => (h.plain (plain_limitTexts _) r hr).1
  refine ⟨(ha.tells (List.forall_mem_nil _) fun _ h => h).append
    (hb.tells (hplain ha) fun _ h => h), kept_startClocks fun r hr => ?_⟩
  rw [requests_append, List.mem_append] at hr
  rcases hr with hr | hr
  · exact hplain ha r hr
  · exact hplain hb r hr

/-- So are the turns after them. -/
theorem turns_accounts {events' turns : List Event} {r : Except GameError Verdict}
    (ha : AskCourse .a (startClocks c).a.limitCommands events (.ok ()))
    (hb : AskCourse .b (startClocks c).b.limitCommands events' (.ok ()))
    (ht : TurnsCourse c seating 0 (startClocks c) turns r) :
    Tells c [] (events ++ events' ++ turns) ∧
      ∀ v, r = .ok v → Kept c (requests (events ++ events' ++ turns)) v.clocks := by
  obtain ⟨htells, hkept⟩ := limits_accounts ha hb
  obtain ⟨htells', hkept'⟩ := ht.accounts (budgeted_startClocks c) hkept
  rw [requests_append]
  exact ⟨htells.append htells', hkept'⟩

/-- A game shows the time as the accounts say, and its record tells what they come to. -/
theorem GameCourse.accounts {reader : List Event → Player} {r : Except GameError GameRecord}
    (h : GameCourse c seating reader events r) :
    Tells c [] events ∧ ∀ record, r = .ok record → ∀ p, (record.remaining.get p).toNat =
      balance (c.clocks.get p) (ownTurns p (requests events)) := by
  have hhistory : ∀ {rs : List Request} {p l x}, (asked p l "history" x).TellsTime c rs :=
    fun text h => absurd h (untimed_closing _ List.mem_cons_self text)
  have hboard : ∀ {rs : List Request} {p l x}, (asked p l "board" x).TellsTime c rs :=
    fun text h => absurd h (untimed_closing _ (List.mem_cons_of_mem _ List.mem_cons_self) text)
  cases h with
  | limitsFailed ha => exact ⟨ha.tells (List.forall_mem_nil _) fun _ h => h, fun _ => nofun⟩
  | otherLimitsFailed ha hb => exact ⟨(limits_accounts ha hb).1, fun _ => nofun⟩
  | turnsFailed ha hb ht => exact ⟨(turns_accounts ha hb ht).1, fun _ => nofun⟩
  | historyFailed ha hb ht _ =>
    exact ⟨(turns_accounts ha hb ht).1.append ⟨hhistory, trivial⟩, fun _ => nofun⟩
  | boardFailed ha hb ht _ _ =>
    exact ⟨(turns_accounts ha hb ht).1.append ⟨hhistory, hboard, trivial⟩, fun _ => nofun⟩
  | @recorded events events' turns v _ history _ _ board _ ha hb ht _ _ =>
    obtain ⟨htells, hkept⟩ := turns_accounts ha hb ht
    refine ⟨htells.append ⟨hhistory, hboard, trivial⟩, ?_⟩
    rintro record ⟨⟩ p
    have hclosed : Kept c (_ ++ [⟨reader (events ++ events' ++ turns), "history", none, history⟩,
        ⟨reader (events ++ events' ++ turns), "board", none, board⟩]) v.clocks :=
      (hkept v rfl).append (fresh_cons (plain_closing _ List.mem_cons_self).2) fun r hr =>
        (plain_closing _ ((asks_closing _ _ _).of_mem hr).2.1).1
    rw [requests_append]
    cases p with
    | a => exact hclosed.remaining_eq .a
    | b => exact hclosed.remaining_eq .b

/-! ## Which turns are credited -/

theorem QuietTurn.ownTurns_eq {n : ℕ} (h : QuietTurn c seating n rs) (p : Player) :
    ∃ took, ownTurns p rs = if mover seating n = p then [⟨took, true⟩] else [] := by
  cases h with
  | @mk x token own others ms time answer _ _ hown hothers _ _ =>
    have hturn := @ownTurns_oneTurn p _ (genRequest c seating n x) rfl
      (turnRequests_ne_gen seating n token own others ms time)
    rw [playedQuietly_plays seating n token hown hothers] at hturn
    exact ⟨x.took, hturn⟩

/-- The turns before the last are quiet. -/
theorem InTurn.ownTurns_quiet {n m : ℕ} (h : InTurn (QuietTurn c seating) n m rs) :
    Fresh rs ∧ ∀ p, ∀ t ∈ ownTurns p rs, t.quiet = true := by
  induction h with
  | none => exact ⟨fresh_nil, fun _ => List.forall_mem_nil _⟩
  | @next n m rs more hrs _ ih =>
    have hfresh : Fresh rs := by
      cases hrs with
      | mk => exact fresh_cons playToken?_gen
    refine ⟨hfresh.append ih.1, fun p t ht => ?_⟩
    rw [ownTurns_append ih.1] at ht
    rcases List.mem_append.mp ht with ht | ht
    · obtain ⟨took, hturn⟩ := hrs.ownTurns_eq p
      rw [hturn] at ht
      by_cases hp : mover seating n = p
      · rw [if_pos hp, List.mem_singleton] at ht
        rw [ht]
      · rw [if_neg hp] at ht
        cases ht
    · exact ih.2 p t ht

/-- The last turn counts for its mover, and it is quiet if the rules alone have ended the game. -/
theorem EndsBy.ownTurns_eq {n : ℕ} {k : Termination} {w : Option Color}
    (h : EndsBy c seating n k w rs) :
    Fresh rs ∧ ∃ last : OwnTurn, (last.quiet = true ↔ k = .turnLimit) ∧
      ∀ p, ownTurns p rs = if mover seating n = p then [last] else [] := by
  have hgen : ∀ x rest, Fresh (genRequest c seating n x :: rest) :=
    fun x rest => fresh_cons playToken?_gen
  have hturn : ∀ (x : Exchange) {more : List Request}, (∀ r ∈ more, r.command ≠ "gen") → ∀ p,
      ownTurns p (genRequest c seating n x :: more) =
        if mover seating n = p then [⟨x.took, playedQuietly more⟩] else [] :=
    fun x more hmore p => ownTurns_oneTurn rfl hmore
  cases h with
  | @noLegalMove x _ =>
    exact ⟨hgen x [], ⟨x.took, false⟩, by simp, hturn x (List.forall_mem_nil _)⟩
  | @timeout x _ _ _ _ =>
    exact ⟨hgen x [], ⟨x.took, false⟩, by simp, hturn x (List.forall_mem_nil _)⟩
  | @declared x token own others text _ _ hown hothers =>
    have hquiet := playedQuietly_plays seating n token hown hothers []
    rw [List.append_nil] at hquiet
    have hlast := hturn x (playRequests_ne_gen seating n token own others)
    rw [hquiet] at hlast
    exact ⟨hgen x _, ⟨x.took, false⟩, by simp, hlast⟩
  | @turnLimit x token own others ms time _ _ _ _ hown hothers _ _ _ =>
    have hlast := hturn x (turnRequests_ne_gen seating n token own others ms time)
    rw [playedQuietly_plays seating n token hown hothers] at hlast
    exact ⟨hgen x _, ⟨x.took, true⟩, by simp, hlast⟩

/-- The turns of a game that ends with a record: all but the last one are quiet, and so is the last
one if the rules alone have ended the game. -/
theorem GameCourse.ownTurns_eq {reader : List Event → Player} {record : GameRecord}
    (h : GameCourse c seating reader events (.ok record)) :
    (∃ earlier last, ownTurns (mover seating record.turns.toNat) (requests events) =
        earlier ++ [last] ∧ (∀ t ∈ earlier, t.quiet = true) ∧
        (last.quiet = true ↔ record.termination = .turnLimit)) ∧
      ∀ t ∈ ownTurns (mover seating record.turns.toNat).other (requests events), t.quiet = true := by
  cases h with
  | @recorded events events' turns v l history answer l' board answer' ha hb ht _ _ =>
    obtain ⟨quiet, last, hquiet, hends, hrequests, -⟩ := ht.verdict
    obtain ⟨hfresh, hall⟩ := hquiet.ownTurns_quiet
    obtain ⟨hfresh', t, ht, hlast⟩ := hends.ownTurns_eq
    have hlimits : ∀ r ∈ requests events ++ requests events', r.command ≠ "gen" := by
      intro r hr
      rcases List.mem_append.mp hr with hr | hr
      · exact (ha.plain (plain_limitTexts _) r hr).1
      · exact (hb.plain (plain_limitTexts _) r hr).1
    have hsplit : ∀ p, ownTurns p (requests (events ++ events' ++ turns ++
        [asked (reader (events ++ events' ++ turns)) l "history" history,
          asked (reader (events ++ events' ++ turns)) l' "board" board])) =
        ownTurns p quiet ++ if mover seating v.turns.toNat = p then [t] else [] := by
      intro p
      rw [requests_append, ownTurns_append_of_others, requests_append, requests_append, hrequests,
        ownTurns_append (hfresh.append hfresh'), ownTurns_eq_nil hlimits, List.nil_append,
        ownTurns_append hfresh', hlast]
      · exact fresh_cons (plain_closing _ List.mem_cons_self).2
      · intro r hr hgen
        exact absurd hgen (plain_closing _ ((asks_closing _ _ _).of_mem hr).2.1).1
    have hmover := hsplit (mover seating v.turns.toNat)
    rw [if_pos rfl] at hmover
    have hother := hsplit (mover seating v.turns.toNat).other
    rw [if_neg (ne_other _), List.append_nil] at hother
    refine ⟨⟨_, t, hmover, hall _, ht⟩, fun t' ht' => hall (mover seating v.turns.toNat).other t' ?_⟩
    rw [← hother]
    exact ht'

end Games

/-! ## The accounts of a game -/

/-- **The accounts of a game.** What its events and its record show of the clocks. -/
structure Accounted (c : GameConfig) (seating : Seating) (events : List Event)
    (result : Except GameError GameRecord) : Prop where
  /-- Each event shows what the account of its player comes to at that point. -/
  tellsTime : ∀ before e after, events = before ++ e :: after → e.TellsTime c (requests before)
  /-- The record shows what the accounts come to in the end. -/
  remaining_eq : ∀ record, result = .ok record → ∀ p, (record.remaining.get p).toNat =
    balance (c.clocks.get p) (ownTurns p (requests events))
  /-- All turns were quiet but for the last one, unless the rules alone have ended the game. -/
  quiet : ∀ record, result = .ok record →
    (∃ earlier last, ownTurns (mover seating record.turns.toNat) (requests events) =
        earlier ++ [last] ∧ (∀ t ∈ earlier, t.quiet = true) ∧
        (last.quiet = true ↔ record.termination = .turnLimit)) ∧
      ∀ t ∈ ownTurns (mover seating record.turns.toNat).other (requests events), t.quiet = true
  /-- A player who is not asked for a move any more has been told what the record shows. -/
  lastTold : ∀ record, result = .ok record → ∀ before r after text,
    requests events = before ++ r :: after → r.command = "limit time total " ++ text →
    (∀ r' ∈ after, r'.command = "gen" → r'.player ≠ r.player) →
    text = toString (record.remaining.get r.player).toNat

section Accounted

variable {c : GameConfig} {events : List Event}

/-- A request after others is shown by an event after the events that show those. -/
theorem exists_event_of_requests {before after : List Request} {r : Request}
    (h : requests events = before ++ r :: after) :
    ∃ earlier e later, events = earlier ++ e :: later ∧ requests earlier = before ∧
      e.request? = some r := by
  obtain ⟨earlier, rest, rfl, hbefore, hrest⟩ := List.filterMap_eq_append_iff.mp h
  obtain ⟨skipped, e, later, rfl, hskipped, he, -⟩ := List.filterMap_eq_cons_iff.mp hrest
  refine ⟨earlier ++ skipped, e, later, (List.append_assoc ..).symm, ?_, he⟩
  have hnone : requests skipped = [] := List.filterMap_eq_nil_iff.mpr hskipped
  rw [requests_append, hnone, List.append_nil]
  exact hbefore

/-- What a request tells of the time is what its player's account comes to. -/
theorem Tells.told (h : Tells c [] events) {before after : List Request} {r : Request}
    {text : String} (hrs : requests events = before ++ r :: after)
    (hr : r.command = "limit time total " ++ text) :
    text = toString (balance (c.clocks.get r.player) (ownTurns r.player before)) := by
  obtain ⟨earlier, e, later, rfl, rfl, he⟩ := exists_event_of_requests hrs
  have htime := h.tellsTime
  cases e with
  | request p label command limit x =>
    cases he
    exact htime text hr
  | diagnostic => cases he
  | move => cases he
  | terminate => cases he
  | note => cases he

end Accounted

/-- **Clock accounting.** Whatever the engines do, the limits that are told, the moves that are
shown and the record of a game show of each clock what the account of its player comes to: the time
that the rules give, less the time of each of its own turns, with the increment for those that were
quiet. -/
theorem clocks_accounted (engines : Engines α β) (s : States α β) (seating : Seating)
    (c : GameConfig) :
    Accounted c seating (play engines s seating c).events (play engines s seating c).result := by
  have hcourse := play_course engines s seating c
  obtain ⟨htells, hrecord⟩ := hcourse.accounts
  refine ⟨fun before e after hevents => ?_, hrecord, fun record hresult => ?_,
    fun record hresult before r after text hrs hr hafter => ?_⟩
  · rw [hevents] at htells
    exact htells.tellsTime
  · rw [hresult] at hcourse
    exact hcourse.ownTurns_eq
  · -- nothing that counts for this player comes after what it was told
    have hfresh : Fresh (r :: after) := by
      refine fresh_cons ?_
      rw [hr]
      exact (plain_time text).2
    have hothers : ∀ r' ∈ r :: after, r'.command = "gen" → r'.player ≠ r.player := by
      intro r' hr' hgen
      rcases List.mem_cons.mp hr' with rfl | hr'
      · rw [hr] at hgen
        exact absurd hgen (plain_time text).1
      · exact hafter r' hr' hgen
    rw [hrecord record hresult, hrs, ownTurns_append_of_others hfresh hothers]
    exact htells.told hrs hr

end EngineDuel.Game

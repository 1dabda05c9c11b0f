import EngineDuel.Proofs.Game.Verdict

/-!
# How a game fails

`FailsBy` says how the last request of a list makes a game fail, and with which error: a request
that failed, unless it is a `gen` that was not answered in time; a `gen` without a move; a move on
which the engines declare different results.

1. An error tells the labels that the engines have at the end (`play_names`).
2. In a list of requests that is `Clean` no request has made the game fail. A game without a failure
   is clean, and a game that fails does so by its last request; only the turn counter may be
   outgrown instead (`GameCourse.fate`).
-/

namespace EngineDuel.Game

variable {α β τ υ : Type}

/-! ## The names in an error -/

/-- The error of a turn tells the labels of its mover and of the opponent. -/
def Names (seating : Seating) (label : Player → String) : GameError → Prop
  | .emptyMove name turn => name = label (mover seating turn.toNat)
  | .winnerMismatch turn _ name _ name' _ =>
    name = label (mover seating turn.toNat) ∧ name' = label (mover seating turn.toNat).other
  | _ => True

theorem mover_toNat (seating : Seating) (n : ℕ) :
    mover seating (UInt32.ofNat n).toNat = mover seating n := by
  unfold mover turnColor
  rw [UInt32.toNat_ofNat', show n % UInt32.size % 2 = n % 2 by unfold UInt32.size; omega]

/-- A part whose errors tell the labels that the engines have after it. -/
def Part.Named (engines : Engines α β) (seating : Seating) (p : Part α β τ) : Prop :=
  ∀ ⦃s events e s'⦄, p.Brings s events (.error e) s' → Names seating (engines.label s') e

section Named

variable {engines : Engines α β} {seating : Seating} {c : GameConfig}

theorem named_pure (x : τ) : (pure x : Part α β τ).Named engines seating := by
  intro s events e s' h
  cases (Part.Brings.of_pure h).2.1

theorem named_fail {e : GameError} (h : ∀ label, Names seating label e) :
    (Part.fail e : Part α β τ).Named engines seating := by
  intro s events e' s' h'
  cases (Part.Brings.of_fail h').2.1
  exact h _

theorem named_bind {p : Part α β τ} {f : τ → Part α β υ} (hp : p.Named engines seating)
    (hf : ∀ x, (f x).Named engines seating) : (p >>= f).Named engines seating := by
  intro s events e s' h
  rcases Part.Brings.of_bind h with ⟨e', he, h'⟩ | ⟨x, s₁, before, rest, -, h₂, -⟩
  · cases h'
    exact hp he
  · exact hf x h₂

/-- A part that computes a value never fails. -/
theorem named_step {g : States α β → τ} {next : States α β → States α β}
    {ev : States α β → List Event} :
    (⟨fun s => (.ok (g s), next s, ev s)⟩ : Part α β τ).Named engines seating := by
  intro s events e s' h
  cases h

theorem named_require (p : Player) (command : String) :
    (engines.require p command).Named engines seating := by
  refine named_bind named_step fun x => ?_
  split
  · exact named_pure _
  · exact named_fail fun _ => trivial

theorem named_requireAll (p : Player) (commands : List String) :
    (engines.requireAll p commands).Named engines seating := by
  induction commands with
  | nil => exact named_pure ()
  | cons command rest ih => exact named_bind (named_require p command) fun _ => ih

theorem named_playMove (n : ℕ) (clocks : ByPlayer Clock) (token : String) (elapsed : UInt64) :
    (playMove engines c seating (.ofNat n) (turnColor n) clocks token elapsed).Named
      engines seating := by
  unfold playMove
  refine named_bind (named_require _ _) fun own => named_bind (named_require _ _) fun others => ?_
  split
  · intro s events e s' h
    obtain ⟨-, he, rfl⟩ :=
      Part.Brings.of_fail (Part.Brings.of_labelOf (Part.Brings.of_labelOf h))
    cases he
    simp only [Names, mover_toNat]
    exact ⟨rfl, rfl⟩
  · refine named_bind named_step fun _ => ?_
    split
    · exact named_pure _
    · refine named_bind (named_require _ _) fun _ => ?_
      split <;> exact named_pure _

theorem named_playTurn (n : ℕ) (clocks : ByPlayer Clock) :
    (playTurn engines c seating (.ofNat n) (turnColor n) clocks).Named engines seating := by
  unfold playTurn
  refine named_bind named_step fun x => named_bind named_step fun _ => ?_
  split
  · exact named_bind named_step fun _ => named_pure _
  · exact named_fail fun _ => trivial
  · intro s events e s' h
    obtain ⟨-, he, rfl⟩ := Part.Brings.of_fail (Part.Brings.of_labelOf h)
    cases he
    simp only [Names, mover_toNat]
    rfl
  · refine named_bind named_step fun _ => named_bind named_step fun _ => ?_
    split
    · exact named_pure _
    · exact named_playMove _ _ _ _

theorem named_playTurns (left n : ℕ) (clocks : ByPlayer Clock) :
    (playTurns engines c seating left (.ofNat n) (turnColor (n + 1)) clocks).Named
      engines seating := by
  induction left generalizing n clocks with
  | zero => exact named_fail fun _ => trivial
  | succ left ih =>
    unfold playTurns
    simp only [ofNat_succ, ← turnColor_succ]
    refine named_bind (named_playTurn _ _) fun ending => ?_
    obtain ⟨winner, termination, clocks'⟩ | clocks' := ending
    · exact named_pure _
    · exact ih _ _

/-- The error of a game tells the labels that the engines have at its end. -/
theorem play_names (s : States α β) {e : GameError}
    (h : (play engines s seating c).result = .error e) :
    Names seating (engines.label (play engines s seating c).states) e := by
  have hgame : (game engines c seating).Named engines seating := by
    unfold game
    refine named_bind (named_requireAll _ _) fun _ => named_bind (named_requireAll _ _) fun _ =>
      named_bind (named_playTurns _ 0 _) fun _ => named_bind named_step fun _ =>
      named_bind (named_require _ _) fun _ => named_bind (named_require _ _) fun _ => named_pure _
  have hbrings := play_brings engines s seating c
  rw [h] at hbrings
  exact hgame hbrings

end Named

/-! ## How a list of requests fails -/

/-- Whether a request for a move was not answered in time. -/
def Request.isLate (r : Request) : Bool :=
  r.command == "gen" &&
    match r.exchange.result with
    | .error (.timeout ..) => true
    | _ => false

/-- **How a game fails** by the last of its requests, where `label` tells the labels of the engines. A
request counts to the turn of the last `gen`. -/
inductive FailsBy (seating : Seating) (label : Player → String) : List Request → GameError → Prop
  /-- The request failed, and it was no `gen` that was not answered in time. -/
  | link {before r e} : r.exchange.result = .error e → r.isLate = false →
      FailsBy seating label (before ++ [r]) (.link e)
  /-- The mover named no move. -/
  | emptyMove {before r} : r.command = "gen" → r.exchange.result = .ok none →
      FailsBy seating label (before ++ [r])
        (.emptyMove (label (mover seating (gens before + 1))) (.ofNat (gens before + 1)))
  /-- Mover and opponent were told a move and declared different results. -/
  | mismatch {before r r' token answer answer'} :
      r.player = mover seating (gens before) → r.command = "play " ++ token →
      r'.player = r.player.other → r'.command = "play " ++ token →
      r.exchange.result = .ok answer → r'.exchange.result = .ok answer' → answer ≠ answer' →
      FailsBy seating label (before ++ [r, r'])
        (.winnerMismatch (.ofNat (gens before)) token (label (mover seating (gens before))) answer
          (label (mover seating (gens before)).other) answer')

section Clean

variable {seating : Seating} {label : Player → String} {rs : List Request} {r : Request}
  {e : GameError}

/-- No request of the list has made the game fail. -/
def Clean (seating : Seating) (label : Player → String) (rs : List Request) : Prop :=
  ∀ ⦃asked e⦄, asked <+: rs → ¬ FailsBy seating label asked e

theorem not_failsBy_nil : ¬ FailsBy seating label [] e := by
  intro h
  generalize hrs : ([] : List Request) = rs at h
  cases h <;> simp at hrs

theorem clean_nil : Clean seating label [] := by
  intro asked e hpre
  rw [List.prefix_nil.mp hpre]
  exact not_failsBy_nil

theorem Clean.concat (h : Clean seating label rs)
    (hr : ∀ e, ¬ FailsBy seating label (rs ++ [r]) e) : Clean seating label (rs ++ [r]) := by
  intro asked e hpre
  rcases List.prefix_concat_iff.mp hpre with rfl | hpre
  · exact hr e
  · exact h hpre

/-- The ways in which one more request fails. -/
theorem FailsBy.of_concat (h : FailsBy seating label (rs ++ [r]) e) :
    (∃ e', r.exchange.result = .error e' ∧ r.isLate = false ∧ e = .link e') ∨
      (r.command = "gen" ∧ r.exchange.result = .ok none ∧
        e = .emptyMove (label (mover seating (gens rs + 1))) (.ofNat (gens rs + 1))) ∨
      ∃ before r' token answer answer', rs = before ++ [r'] ∧ r'.command = "play " ++ token ∧
        r.command = "play " ++ token ∧ r'.exchange.result = .ok answer ∧
        r.exchange.result = .ok answer' ∧ answer ≠ answer' ∧
        e = .winnerMismatch (.ofNat (gens before)) token (label (mover seating (gens before))) answer
          (label (mover seating (gens before)).other) answer' := by
  generalize hrs : rs ++ [r] = all at h
  cases h with
  | link he hlate =>
    obtain ⟨rfl, hr⟩ := List.append_inj' hrs rfl
    cases hr
    exact .inl ⟨_, he, hlate, rfl⟩
  | emptyMove hgen hx =>
    obtain ⟨rfl, hr⟩ := List.append_inj' hrs rfl
    cases hr
    exact .inr (.inl ⟨hgen, hx, rfl⟩)
  | @mismatch before r₁ r₂ token answer answer' _ h₁ _ h₂ hx₁ hx₂ hne =>
    rw [List.append_cons before] at hrs
    obtain ⟨rfl, hr⟩ := List.append_inj' hrs rfl
    cases hr
    exact .inr (.inr ⟨before, r₁, token, answer, answer', rfl, h₁, h₂, hx₁, hx₂, hne, rfl⟩)

/-- A list of requests fails with one error only. -/
theorem FailsBy.unique {e' : GameError} (h : FailsBy seating label rs e)
    (h' : FailsBy seating label rs e') : e' = e := by
  cases h with
  | link hx hlate =>
    rcases h'.of_concat with ⟨_, hx', -, rfl⟩ | ⟨-, hx', -⟩ | ⟨_, _, _, _, _, -, -, -, -, hx', -⟩
    · rw [Except.error.inj (hx'.symm.trans hx)]
    · cases hx.symm.trans hx'
    · cases hx.symm.trans hx'
  | emptyMove hgen hx =>
    rcases h'.of_concat with ⟨_, hx', -⟩ | ⟨-, -, rfl⟩ | ⟨_, _, token, _, _, -, -, hplay, -⟩
    · cases hx.symm.trans hx'
    · rfl
    · exact absurd (hplay.symm.trans hgen) (play_ne_gen token)
  | @mismatch before r r' token answer answer' _ h₁ _ h₂ hx₁ hx₂ _ =>
    rw [List.append_cons before] at h'
    rcases h'.of_concat with ⟨_, hx', -⟩ | ⟨hgen, -⟩ |
      ⟨before', s, token', _, _, hrs, -, h₂', hx₁', hx₂', -, rfl⟩
    · cases hx₂.symm.trans hx'
    · exact absurd (h₂.symm.trans hgen) (play_ne_gen token)
    · obtain ⟨rfl, hs⟩ := List.append_inj' hrs rfl
      cases hs
      have htoken : some token = some token' := by
        rw [← playToken?_play, ← playToken?_play, ← h₂, h₂']
      rw [Option.some.inj htoken, Except.ok.inj (hx₁'.symm.trans hx₁),
        Except.ok.inj (hx₂'.symm.trans hx₂)]

/-- A request with an answer: if it asked for a move it was named one, and if it told a move its answer
is that of the request before it, should that one have told the same move. -/
theorem Clean.answered (h : Clean seating label rs) {answer : Option String}
    (hx : r.exchange.result = .ok answer) (hgen : r.command = "gen" → answer ≠ none)
    (hplay : ∀ before r' token answer', rs = before ++ [r'] → r'.command = "play " ++ token →
      r.command = "play " ++ token → r'.exchange.result = .ok answer' → answer' = answer) :
    Clean seating label (rs ++ [r]) := by
  refine h.concat fun e he => ?_
  rcases he.of_concat with ⟨e', he', -⟩ | ⟨hcommand, hnone, -⟩ |
    ⟨before, r', token, answer', answer'', hrs, h₁, h₂, hx', hx'', hne, -⟩
  · rw [hx] at he'
    cases he'
  · rw [hx] at hnone
    exact hgen hcommand (Except.ok.inj hnone)
  · rw [hx] at hx''
    cases hx''
    exact hne (hplay before r' token answer' hrs h₁ h₂ hx')

theorem Clean.plain (h : Clean seating label rs) {answer : Option String}
    (hx : r.exchange.result = .ok answer)
    (hplain : r.command ≠ "gen" ∧ playToken? r.command = none) :
    Clean seating label (rs ++ [r]) := by
  refine h.answered hx (fun hgen => absurd hgen hplain.1) ?_
  rintro before r' token answer' - - hcommand -
  have hsome := playToken?_play token
  rw [← hcommand, hplain.2] at hsome
  cases hsome

theorem Clean.late (h : Clean seating label rs) (hlate : r.isLate = true) :
    Clean seating label (rs ++ [r]) := by
  refine h.concat fun e he => ?_
  rcases he.of_concat with ⟨e', -, hfalse, -⟩ | ⟨-, hnone, -⟩ | ⟨_, _, _, _, _, -, -, -, -, hx, -⟩
  · rw [hlate] at hfalse
    cases hfalse
  · simp [Request.isLate, hnone] at hlate
  · simp [Request.isLate, hx] at hlate

/-! ## The fate of a game -/

/-- What became of a game with these requests: none made it fail, the last one did, or the turn
counter is outgrown, for which the rules must set no limit. -/
inductive Fate (c : GameConfig) (seating : Seating) (label : Player → String) (rs : List Request) :
    Except GameError τ → Prop
  | fine {x} : Clean seating label rs → Fate c seating label rs (.ok x)
  | failed {before r e} : Clean seating label before → rs = before ++ [r] →
      FailsBy seating label rs e → Fate c seating label rs (.error e)
  | counterFull : Clean seating label rs → gens rs + 1 = UInt32.size → c.maxTurns = none →
      Fate c seating label rs (.error (.overflow .onAddition))

variable {c : GameConfig} {n : ℕ}

theorem Fate.clean {x : τ} (h : Fate c seating label rs (.ok x)) : Clean seating label rs := by
  cases h with
  | fine h => exact h

/-- An error is the fate of the whole game. -/
theorem Fate.error (h : Fate c seating label rs (.error e : Except GameError τ)) :
    Fate c seating label rs (.error e : Except GameError υ) := by
  cases h with
  | failed h hrs he => exact .failed h hrs he
  | counterFull h hgens hmax => exact .counterFull h hgens hmax

theorem Clean.failed_link (h : Clean seating label rs) {cause : LinkError}
    (hx : r.exchange.result = .error cause) (hlate : r.isLate = false) :
    Fate c seating label (rs ++ [r]) (.error (.link cause) : Except GameError τ) :=
  .failed h rfl (.link hx hlate)

theorem isLate_of_ne {r : Request} (h : r.command ≠ "gen") : r.isLate = false := by
  unfold Request.isLate
  rw [beq_false_of_ne h, Bool.false_and]

theorem isLate_genRequest {x : Exchange}
    (h : ∀ engine command limit, x.result ≠ .error (.timeout engine command limit)) :
    (genRequest c seating n x).isLate = false := by
  unfold Request.isLate genRequest
  rw [Bool.and_eq_false_iff]
  right
  split
  · rename_i engine command limit he
    exact absurd he (h engine command limit)
  · rfl

/-- Commands that neither ask for a move nor tell one. -/
theorem AskCourse.fate {p : Player} {commands : List String} {events : List Event}
    {result : Except GameError Unit} (h : AskCourse p commands events result)
    (hplain : ∀ command ∈ commands, command ≠ "gen" ∧ playToken? command = none)
    (hrs : Clean seating label rs) : Fate c seating label (rs ++ requests events) result := by
  induction h generalizing rs with
  | done => exact .fine (by rwa [show requests [] = [] from rfl, List.append_nil])
  | failed hx =>
    exact hrs.failed_link hx (isLate_of_ne (hplain _ List.mem_cons_self).1)
  | answered hx _ ih =>
    rw [requests_request, List.append_cons]
    exact ih (fun command hmem => hplain command (List.mem_cons_of_mem _ hmem))
      (hrs.plain hx (hplain _ List.mem_cons_self))

/-! ### Turns -/

/-- The mover has named a move. -/
theorem Clean.gen (h : Clean seating label rs) {x : Exchange} {token : String}
    (hx : x.result = .ok (some token)) :
    Clean seating label (rs ++ [genRequest c seating n x]) := by
  refine h.answered hx (fun _ => nofun) ?_
  intro _ _ token' _ _ _ hcommand _
  exact absurd hcommand.symm (play_ne_gen token')

/-- The mover was told the move that it has named. -/
theorem Clean.own {x own : Exchange} {token : String} {answer : Option String}
    (h : Clean seating label (rs ++ [genRequest c seating n x]))
    (hown : own.result = .ok answer) :
    Clean seating label (rs ++ [genRequest c seating n x] ++
      [⟨mover seating n, "play " ++ token, none, own⟩]) := by
  have hne : (⟨mover seating n, "play " ++ token, none, own⟩ : Request).command ≠ "gen" :=
    play_ne_gen token
  refine h.answered hown (fun hgen => absurd hgen hne) ?_
  intro before r' token' answer' hlast hcommand _ _
  obtain ⟨-, hr⟩ := List.append_inj' hlast rfl
  cases hr
  exact absurd hcommand.symm (play_ne_gen token')

/-- The opponent was told the same move and answered alike. -/
theorem Clean.others {own others : Exchange} {token : String} {answer : Option String}
    (h : Clean seating label (rs ++ [⟨mover seating n, "play " ++ token, none, own⟩]))
    (hown : own.result = .ok answer) (hothers : others.result = .ok answer) :
    Clean seating label (rs ++ playRequests seating n token own others) := by
  have hne : (⟨(mover seating n).other, "play " ++ token, none, others⟩ : Request).command ≠ "gen" :=
    play_ne_gen token
  unfold playRequests
  rw [List.append_cons]
  refine h.answered hothers (fun hgen => absurd hgen hne) ?_
  intro before r' token' answer' hlast _ _ hx
  obtain ⟨-, hr⟩ := List.append_inj' hlast rfl
  cases hr
  exact Except.ok.inj (hx.symm.trans hown)

theorem QuietTurn.clean {block : List Request} (h : QuietTurn c seating n block)
    (hrs : Clean seating label rs) : Clean seating label (rs ++ block) := by
  cases h with
  | mk hx hnone hown hothers htime hmax =>
    rw [← List.append_assoc, ← List.singleton_append, ← List.append_assoc]
    exact (((hrs.gen hx).own hown).others hown hothers).plain htime (plain_time _)

theorem InTurn.clean {m : ℕ} {turns : List Request} (h : InTurn (QuietTurn c seating) n m turns)
    (hrs : Clean seating label rs) : Clean seating label (rs ++ turns) := by
  induction h generalizing rs with
  | none => rwa [List.append_nil]
  | next hblock _ ih =>
    rw [← List.append_assoc]
    exact ih (hblock.clean hrs)

theorem gens_concat_gen (x : Exchange) :
    gens (rs ++ [genRequest c seating n x]) = gens rs + 1 := by
  rw [gens_append, gens_gen]
  rfl

theorem requests_playEvents (token l : String) (own : Exchange) (l' : String) (others : Exchange) :
    requests (playEvents seating n token l own l' others) =
      [⟨mover seating n, "play " ++ token, none, own⟩] ++
        [⟨(mover seating n).other, "play " ++ token, none, others⟩] := rfl

/-- What becomes of a game after the mover of turn `n` has named a move. -/
theorem MoveCourse.fate {clocks : ByPlayer Clock} {token : String} {elapsed : UInt64} {x : Exchange}
    {events : List Event} {result : Except GameError TurnEnd}
    (h : MoveCourse c seating n clocks token elapsed events result)
    (hnames : ∀ e, result = .error e → Names seating label e) (hn : gens rs + 1 = n)
    (hrs : Clean seating label (rs ++ [genRequest c seating n x])) :
    Fate c seating label (rs ++ [genRequest c seating n x] ++ requests events) result := by
  -- both engines were told the move, and the mover was told its time
  have hagreed : ∀ {own others : Exchange} {answer}, own.result = .ok answer →
      others.result = .ok answer → Clean seating label
        (rs ++ [genRequest c seating n x] ++ playRequests seating n token own others) :=
    fun hown hothers => (hrs.own hown).others hown hothers
  cases h with
  | ownFailed hx => exact hrs.failed_link hx (isLate_of_ne (play_ne_gen token))
  | othersFailed hown hx =>
    rw [requests_playEvents, ← List.append_assoc]
    exact (hrs.own hown).failed_link hx (isLate_of_ne (play_ne_gen token))
  | @mismatch _ own _ others answer answer' name name' hown hothers hne =>
    rw [requests_playEvents, ← List.append_assoc]
    have hgens : gens (rs ++ [genRequest c seating n x]) = n := by rw [gens_concat_gen, hn]
    obtain ⟨hname, hname'⟩ := hnames _ rfl
    rw [mover_toNat] at hname hname'
    have hfails := @FailsBy.mismatch seating label (rs ++ [genRequest c seating n x])
      ⟨mover seating n, "play " ++ token, none, own⟩
      ⟨(mover seating n).other, "play " ++ token, none, others⟩ token answer answer'
      (by rw [hgens]) rfl rfl rfl hown hothers hne
    rw [hgens, ← hname, ← hname', List.append_cons] at hfails
    exact .failed (hrs.own hown) rfl hfails
  | declared hown hothers => exact .fine (hagreed hown hothers)
  | timeFailed hown hothers hx =>
    rw [requests_append, ← List.append_assoc]
    exact (hagreed hown hothers).failed_link hx (isLate_of_ne (plain_time _).1)
  | lastTurn hown hothers htime hlast =>
    rw [requests_append, ← List.append_assoc]
    exact .fine ((hagreed hown hothers).plain htime (plain_time _))
  | goOn hown hothers htime hlast =>
    rw [requests_append, ← List.append_assoc]
    exact .fine ((hagreed hown hothers).plain htime (plain_time _))

/-- What becomes of a game in turn `n`. -/
theorem TurnCourse.fate {clocks : ByPlayer Clock} {events : List Event}
    {result : Except GameError TurnEnd} (h : TurnCourse c seating n clocks events result)
    (hnames : ∀ e, result = .error e → Names seating label e) (hb : Budgeted c clocks)
    (hn : gens rs + 1 = n) (hrs : Clean seating label rs) :
    Fate c seating label (rs ++ requests events) result := by
  cases h with
  | timeout hx =>
    rw [requests_append, requests_genEvents hb]
    refine .fine (hrs.late ?_)
    simp [Request.isLate, genRequest, hx]
  | genFailed hx hne =>
    rw [requests_genEvents hb]
    refine hrs.failed_link hx (isLate_genRequest fun engine command limit he => ?_)
    exact hne engine command limit (Except.error.inj (hx.symm.trans he))
  | emptyMove hx =>
    rw [requests_genEvents hb]
    have hname := hnames _ rfl
    simp only [Names, mover_toNat] at hname
    have hfails := @FailsBy.emptyMove seating label rs (genRequest c seating n _) rfl hx
    rw [hn, ← hname] at hfails
    exact .failed hrs rfl hfails
  | noMove hx =>
    rw [requests_append, requests_genEvents hb]
    exact .fine (hrs.gen hx)
  | played hx _ hmove =>
    rw [requests_append, requests_genEvents hb, ← List.append_assoc]
    exact hmove.fate hnames hn (hrs.gen hx)

/-- What becomes of a game in its turns. -/
theorem TurnsCourse.fate {clocks : ByPlayer Clock} {events : List Event}
    {result : Except GameError Verdict} (h : TurnsCourse c seating 0 clocks events result)
    (hnames : ∀ e, result = .error e → Names seating label e) (hb : Budgeted c clocks)
    (hrs : Clean seating label rs) (hgens : gens rs = 0) :
    Fate c seating label (rs ++ requests events) result := by
  cases h with
  | @counterFull _ m _ hq hm =>
    obtain ⟨hquiet, -⟩ := hq.inTurn hb
    have hcount := hquiet.gens_eq
    refine .counterFull (hquiet.clean hrs) (by rw [gens_append]; omega) ?_
    cases hmax : c.maxTurns with
    | none => rfl
    | some limit =>
      have hlimit := hquiet.le_limit (by unfold UInt32.size at hm; omega) hmax
      have := limit.toNat_lt
      unfold UInt32.size at hm
      omega
  | failed hq hm hlast =>
    obtain ⟨hquiet, hb'⟩ := hq.inTurn hb
    have hcount := hquiet.gens_eq
    rw [requests_append, ← List.append_assoc]
    refine (hlast.fate ?_ hb' (by rw [gens_append]; omega) (hquiet.clean hrs)).error
    rintro _ ⟨⟩
    exact hnames _ rfl
  | ended hq hm hlast =>
    obtain ⟨hquiet, hb'⟩ := hq.inTurn hb
    have hcount := hquiet.gens_eq
    rw [requests_append, ← List.append_assoc]
    exact .fine (hlast.fate (fun _ => nofun) hb' (by rw [gens_append]; omega)
      (hquiet.clean hrs)).clean

theorem AskCourse.gens_eq {p : Player} {commands : List String} {events : List Event}
    (h : AskCourse p commands events (.ok ()))
    (hplain : ∀ command ∈ commands, command ≠ "gen" ∧ playToken? command = none) :
    gens (requests events) = 0 := by
  obtain ⟨word, hword, -, hall⟩ := h.prefix_asks
  rw [hall rfl]
  exact hword.gens_eq hplain

/-- **What becomes of a game.** It ends with a record, or its last request makes it fail, or the turn
counter is outgrown. -/
theorem GameCourse.fate {reader : List Event → Player} {events : List Event}
    {result : Except GameError GameRecord} (h : GameCourse c seating reader events result)
    (hnames : ∀ e, result = .error e → Names seating label e) :
    Fate c seating label (requests events) result := by
  have hlimits : ∀ {events r}, AskCourse .a (startClocks c).a.limitCommands events r →
      Fate c seating label (requests events) r :=
    fun ha => ha.fate (plain_limitTexts _) clean_nil
  have hothers : ∀ {events events' r}, AskCourse .a (startClocks c).a.limitCommands events (.ok ()) →
      AskCourse .b (startClocks c).b.limitCommands events' r →
      Fate c seating label (requests (events ++ events')) r := by
    intro events events' r ha hb
    rw [requests_append]
    exact hb.fate (plain_limitTexts _) (hlimits ha).clean
  have hturns : ∀ {events events' turns r},
      AskCourse .a (startClocks c).a.limitCommands events (.ok ()) →
      AskCourse .b (startClocks c).b.limitCommands events' (.ok ()) →
      TurnsCourse c seating 0 (startClocks c) turns r →
      (∀ e, r = .error e → Names seating label e) →
      Fate c seating label (requests (events ++ events' ++ turns)) r := by
    intro events events' turns r ha hb ht hlabels
    rw [requests_append]
    refine ht.fate hlabels (budgeted_startClocks c) (hothers ha hb).clean ?_
    rw [requests_append, gens_append, ha.gens_eq (plain_limitTexts _),
      hb.gens_eq (plain_limitTexts _)]
  have hhistory : "history" ≠ "gen" ∧ playToken? "history" = none := plain_closing _ (by decide)
  have hboard : "board" ≠ "gen" ∧ playToken? "board" = none := plain_closing _ (by decide)
  cases h with
  | limitsFailed ha => exact (hlimits ha).error
  | otherLimitsFailed ha hb => exact (hothers ha hb).error
  | turnsFailed ha hb ht =>
    refine (hturns ha hb ht ?_).error
    rintro _ ⟨⟩
    exact hnames _ rfl
  | historyFailed ha hb ht hx =>
    rw [requests_append]
    exact (hturns ha hb ht fun _ => nofun).clean.failed_link hx (isLate_of_ne hhistory.1)
  | boardFailed ha hb ht hx hx' =>
    rw [requests_append, requests_request, List.append_cons]
    exact ((hturns ha hb ht fun _ => nofun).clean.plain hx hhistory).failed_link hx'
      (isLate_of_ne hboard.1)
  | recorded ha hb ht hx hx' =>
    rw [requests_append, requests_request, List.append_cons]
    exact .fine (((hturns ha hb ht fun _ => nofun).clean.plain hx hhistory).plain hx' hboard)

end Clean

end EngineDuel.Game

import EngineDuel.Proofs.Game.RequestOrder
import EngineDuel.Proofs.Game.ToldMoves

/-!
# The mirror image of a game

In the mirror image of a game the engines change places, together with their clocks and their
colours, so that each engine plays the same colour as before. `play_evenHanded`: the image comes to
the same result, and up to the questions at the end each engine is asked the same.

1. A part `Mirrors` another if it brings the same with the places exchanged. Parts that are made of
   mirror images are mirror images (`Part.Mirrors.bind`), so a turn of the image is the image of the
   turn (`mirrors_playTurn`), and by induction so are all turns (`mirrors_playTurns`).
2. The limits are not: A is always told its limits first. But telling them to one engine neither
   depends on the other nor changes it (`Part.SparesB`), so the order does not matter
   (`limits_commute`).
3. Hence a game gets to its turns exactly if its image does, and the turns are images of each other
   (`TurnsReached.mirror`).
-/

namespace EngineDuel

/-! ## Places exchanged -/

/-- The values of the players exchanged. -/
def ByPlayer.mirror {γ : Type} (v : ByPlayer γ) : ByPlayer γ := ⟨v.b, v.a⟩

@[simp] theorem ByPlayer.mirror_mirror {γ : Type} (v : ByPlayer γ) : v.mirror.mirror = v := rfl

@[simp] theorem ByPlayer.get_mirror {γ : Type} (v : ByPlayer γ) (p : Player) :
    v.mirror.get p.other = v.get p := by
  cases p <;> rfl

@[simp] theorem ByPlayer.mirror_set {γ : Type} (v : ByPlayer γ) (p : Player) (x : γ) :
    v.mirror.set p.other x = (v.set p x).mirror := by
  cases p <;> rfl

/-- The colours of the players exchanged. -/
def Seating.mirror (s : Seating) : Seating := ⟨s.aColor.flip⟩

@[simp] theorem Seating.mirror_mirror (s : Seating) : s.mirror.mirror = s := by
  rcases s with ⟨_ | _⟩ <;> rfl

@[simp] theorem Seating.playerOf_mirror (s : Seating) (color : Color) :
    s.mirror.playerOf color = (s.playerOf color).other := by
  rcases s with ⟨_ | _⟩ <;> cases color <;> rfl

/-- The rules with the clocks of the players exchanged. -/
def GameConfig.mirror (c : GameConfig) : GameConfig := { c with clocks := c.clocks.mirror }

@[simp] theorem GameConfig.mirror_mirror (c : GameConfig) : c.mirror.mirror = c := rfl

namespace Game

variable {α β τ υ τ' υ' : Type}

/-- The engines exchanged. -/
def Engines.mirror (engines : Engines α β) : Engines β α := ⟨engines.b, engines.a⟩

/-- The states of the engines exchanged. -/
def States.mirror (s : States α β) : States β α := ⟨s.b, s.a⟩

@[simp] theorem Engines.mirror_mirror (engines : Engines α β) : engines.mirror.mirror = engines := rfl

@[simp] theorem States.mirror_mirror (s : States α β) : s.mirror.mirror = s := rfl

/-- The same move by the other player. -/
def Move.mirror (m : Move) : Move := { m with player := m.player.other }

/-- The same event for the other player. -/
def Event.mirror : Event → Event
  | .request p label command limit x => .request p.other label command limit x
  | .diagnostic p line => .diagnostic p.other line
  | .move m => .move m.mirror
  | .terminate p label => .terminate p.other label
  | .note line => .note line

/-- The same request to the other player's engine. -/
def Request.mirror (r : Request) : Request := { r with player := r.player.other }

/-- A turn that ends in the same way, with the clocks exchanged. -/
def TurnEnd.mirror : TurnEnd → TurnEnd
  | .over winner termination clocks => .over winner termination clocks.mirror
  | .goOn clocks => .goOn clocks.mirror

/-- The same verdict with the clocks exchanged. -/
def Verdict.mirror (v : Verdict) : Verdict := { v with clocks := v.clocks.mirror }

theorem requests_mirror (events : List Event) :
    requests (events.map Event.mirror) = (requests events).map Request.mirror := by
  unfold requests
  rw [List.filterMap_map, List.map_filterMap]
  congr 1
  funext e
  cases e <;> rfl

theorem moves_mirror (events : List Event) :
    moves (events.map Event.mirror) = (moves events).map Move.mirror := by
  unfold moves
  rw [List.filterMap_map, List.map_filterMap]
  congr 1
  funext e
  cases e <;> rfl

/-! ## Mirror images of parts -/

/-- With the places of the engines exchanged, `q` brings what `p` brings, its value changed by `f`. -/
def Part.Mirrors (f : τ → τ') (p : Part α β τ) (q : Part β α τ') : Prop :=
  ∀ ⦃s events r s'⦄, p.Brings s events r s' →
    q.Brings s.mirror (events.map Event.mirror) (r.map f) s'.mirror

namespace Part

variable {s s' s'' : States α β} {before after events : List Event} {p : Part α β τ}
  {g : τ → Part α β υ}

theorem Mirrors.bind {f : τ → τ'} {h : υ → υ'} {q : Part β α τ'} {k : τ' → Part β α υ'}
    (hp : p.Mirrors f q) (hg : ∀ x, (g x).Mirrors h (k (f x))) : (p >>= g).Mirrors h (q >>= k) := by
  intro s events r s' hbrings
  rcases Brings.of_bind hbrings with ⟨e, he, rfl⟩ | ⟨x, s₁, before, after, hx, hrest, rfl⟩
  · exact Brings.bind_error (hp he)
  · rw [List.map_append]
    exact Brings.bind (hp hx) (hg x hrest)

theorem mirrors_pure {f : τ → τ'} {x : τ} {y : τ'} (hy : y = f x) :
    (pure x : Part α β τ).Mirrors f (pure y) := by
  subst hy
  intro s events r s' h
  obtain ⟨rfl, rfl, rfl⟩ := Brings.of_pure h
  rfl

theorem mirrors_fail {f : τ → τ'} (e : GameError) :
    (Part.fail e : Part α β τ).Mirrors f (Part.fail e) := by
  intro s events r s' h
  obtain ⟨rfl, rfl, rfl⟩ := Brings.of_fail h
  rfl

theorem mirrors_emit (e : Event) : (Part.emit e : Part α β Unit).Mirrors id (Part.emit e.mirror) := by
  intro s events r s' h
  cases h
  rfl

end Part

section Parts

variable {engines : Engines α β} {c : GameConfig} {seating : Seating}

theorem mirrors_ask (p : Player) (command : String) (limit : Option Duration) :
    (engines.ask p command limit).Mirrors id (engines.mirror.ask p.other command limit) := by
  intro s events r s' h
  cases h
  cases p <;> rfl

theorem mirrors_labelOf (p : Player) :
    (engines.labelOf p).Mirrors id (engines.mirror.labelOf p.other) := by
  intro s events r s' h
  cases h
  cases p <;> rfl

theorem mirrors_stop (p : Player) :
    (engines.stop p).Mirrors id (engines.mirror.stop p.other) := by
  intro s events r s' h
  cases h
  cases p <;> rfl

theorem mirrors_passOn (p : Player) (lines : List String) :
    (passOn c p lines : Part α β Unit).Mirrors id (passOn c.mirror p.other lines) := by
  intro s events r s' h
  cases h
  show _ = (_, _, ((lines.filter c.echoes).map (Event.diagnostic p)).map Event.mirror)
  rw [List.map_map]
  rfl

theorem mirrors_require (p : Player) (command : String) :
    (engines.require p command).Mirrors id (engines.mirror.require p.other command) := by
  refine (mirrors_ask p command none).bind fun x => ?_
  cases hx : x.result with
  | ok answer =>
    simp only [id_eq, hx]
    exact Part.mirrors_pure rfl
  | error e =>
    simp only [id_eq, hx]
    exact Part.mirrors_fail _

theorem mirrors_requireAll (p : Player) (commands : List String) :
    (engines.requireAll p commands).Mirrors id (engines.mirror.requireAll p.other commands) := by
  induction commands with
  | nil => exact Part.mirrors_pure rfl
  | cons command rest ih => exact (mirrors_require p command).bind fun _ => ih

/-! ## Mirror images of turns -/

theorem mirrors_playMove (turn : UInt32) (color : Color) (clocks : ByPlayer Clock) (token : String)
    (elapsed : UInt64) :
    (playMove engines c seating turn color clocks token elapsed).Mirrors TurnEnd.mirror
      (playMove engines.mirror c.mirror seating.mirror turn color clocks.mirror token elapsed) := by
  unfold playMove
  simp only [Seating.playerOf_mirror, ByPlayer.get_mirror, ByPlayer.mirror_set]
  refine (mirrors_require _ _).bind fun own => (mirrors_require _ _).bind fun others => ?_
  by_cases hne : own ≠ others
  · simp only [id_eq, if_pos hne]
    exact (mirrors_labelOf _).bind fun _ => (mirrors_labelOf _).bind fun _ => Part.mirrors_fail _
  · simp only [id_eq, if_neg hne]
    refine (Part.mirrors_emit _).bind fun _ => ?_
    cases own with
    | some text => exact Part.mirrors_pure rfl
    | none =>
      refine (mirrors_require _ _).bind fun _ => ?_
      show Part.Mirrors _ _ (if c.isLastTurn turn then _ else _)
      by_cases hlast : c.isLastTurn turn = true
      · simp only [if_pos hlast]
        exact Part.mirrors_pure rfl
      · simp only [if_neg hlast]
        exact Part.mirrors_pure rfl

/-- The turn of the mirror image is the mirror image of the turn. -/
theorem mirrors_playTurn (turn : UInt32) (color : Color) (clocks : ByPlayer Clock) :
    (playTurn engines c seating turn color clocks).Mirrors TurnEnd.mirror
      (playTurn engines.mirror c.mirror seating.mirror turn color clocks.mirror) := by
  unfold playTurn
  simp only [Seating.playerOf_mirror, ByPlayer.get_mirror, ByPlayer.mirror_set]
  refine (mirrors_ask _ _ _).bind fun x => (mirrors_passOn _ _).bind fun _ => ?_
  simp only [id_eq]
  split
  · exact (mirrors_stop _).bind fun _ => Part.mirrors_pure rfl
  · exact Part.mirrors_fail _
  · exact (mirrors_labelOf _).bind fun _ => Part.mirrors_fail _
  · rename_i token _
    refine (mirrors_labelOf _).bind fun _ => (Part.mirrors_emit _).bind fun _ => ?_
    by_cases hnone : token = "none"
    · simp only [if_pos hnone]
      exact Part.mirrors_pure rfl
    · simp only [if_neg hnone]
      exact mirrors_playMove _ _ _ _ _

/-- So are all turns: by induction on how often the turn counter can still be raised. -/
theorem mirrors_playTurns (left : ℕ) (turn : UInt32) (color : Color) (clocks : ByPlayer Clock) :
    (playTurns engines c seating left turn color clocks).Mirrors Verdict.mirror
      (playTurns engines.mirror c.mirror seating.mirror left turn color clocks.mirror) := by
  induction left generalizing turn color clocks with
  | zero => exact Part.mirrors_fail _
  | succ left ih =>
    unfold playTurns
    refine (mirrors_playTurn _ _ _).bind fun ending => ?_
    obtain ⟨winner, termination, clocks'⟩ | clocks' := ending
    · exact Part.mirrors_pure rfl
    · exact ih _ _ _

end Parts

/-! ## The limits -/

/-- A part that neither depends on B's engine nor changes it. -/
def Part.SparesB (p : Part α β τ) : Prop :=
  ∀ ⦃s events r s'⦄, p.Brings s events r s' →
    s'.b = s.b ∧ ∀ b, p.Brings ⟨s.a, b⟩ events r ⟨s'.a, b⟩

section Limits

variable {engines : Engines α β} {s s' s₁ s₂ : States α β} {before after : List Event}

theorem sparesB_pure (x : τ) : (pure x : Part α β τ).SparesB := by
  intro s events r s' h
  obtain ⟨rfl, rfl, rfl⟩ := Part.Brings.of_pure h
  exact ⟨rfl, fun b => rfl⟩

theorem sparesB_fail (e : GameError) : (Part.fail e : Part α β τ).SparesB := by
  intro s events r s' h
  obtain ⟨rfl, rfl, rfl⟩ := Part.Brings.of_fail h
  exact ⟨rfl, fun b => rfl⟩

theorem Part.SparesB.bind {p : Part α β τ} {f : τ → Part α β υ} (hp : p.SparesB)
    (hf : ∀ x, (f x).SparesB) : (p >>= f).SparesB := by
  intro s events r s' h
  rcases Part.Brings.of_bind h with ⟨e, he, rfl⟩ | ⟨x, s₁, before, after, hx, hrest, rfl⟩
  · exact ⟨(hp he).1, fun b => Part.Brings.bind_error ((hp he).2 b)⟩
  · constructor
    · rw [(hf x hrest).1, (hp hx).1]
    · intro b
      exact Part.Brings.bind ((hp hx).2 b) ((hf x hrest).2 b)

theorem sparesB_require (command : String) : (engines.require .a command).SparesB := by
  unfold Engines.require
  apply Part.SparesB.bind
  · intro s events r s' h
    cases h
    exact ⟨rfl, fun b => rfl⟩
  · intro x
    split
    · exact sparesB_pure _
    · exact sparesB_fail _

theorem sparesB_requireAll (commands : List String) : (engines.requireAll .a commands).SparesB := by
  induction commands with
  | nil => exact sparesB_pure ()
  | cons command rest ih => exact (sparesB_require command).bind fun _ => ih

theorem map_mirror_mirror (events : List Event) :
    (events.map Event.mirror).map Event.mirror = events := by
  rw [List.map_map]
  refine List.map_id'' (fun e => ?_) events
  cases e <;> simp [Event.mirror, Move.mirror]

/-- The mirror image of `sparesB_requireAll`. -/
theorem requireAll_spares_a {commands : List String} {r : Except GameError Unit}
    (h : (engines.requireAll .b commands).Brings s before r s') :
    s'.a = s.a ∧ ∀ a, (engines.requireAll .b commands).Brings ⟨a, s.b⟩ before r ⟨a, s'.b⟩ := by
  obtain ⟨hb, hspares⟩ := sparesB_requireAll commands (mirrors_requireAll .b commands h)
  refine ⟨hb, fun a => ?_⟩
  have hback := mirrors_requireAll .a commands (hspares a)
  rw [map_mirror_mirror] at hback
  cases r <;> exact hback

/-- The limits of both engines can be told in either order. -/
theorem limits_commute {commands otherCommands : List String}
    (ha : (engines.requireAll .a commands).Brings s before (.ok ()) s₁)
    (hb : (engines.requireAll .b otherCommands).Brings s₁ after (.ok ()) s₂) :
    ∃ s₁', (engines.requireAll .b otherCommands).Brings s after (.ok ()) s₁' ∧
      (engines.requireAll .a commands).Brings s₁' before (.ok ()) s₂ := by
  obtain ⟨hkeep, hfirst⟩ := sparesB_requireAll commands ha
  obtain ⟨hkeep', hsecond⟩ := requireAll_spares_a hb
  have hsecond := hsecond s.a
  have hfirst := hfirst s₂.b
  rw [hkeep] at hsecond
  rw [← hkeep'] at hfirst
  exact ⟨_, hsecond, hfirst⟩

end Limits

/-! ## How a game gets to its turns -/

/-- Both engines accept their limits. -/
def Configured (engines : Engines α β) (c : GameConfig) (s : States α β)
    (limits otherLimits : List Event) (s' : States α β) : Prop :=
  ∃ s₁, (engines.requireAll .a (startClocks c).a.limitCommands).Brings s limits (.ok ()) s₁ ∧
    (engines.requireAll .b (startClocks c).b.limitCommands).Brings s₁ otherLimits (.ok ()) s'

/-- What follows the turns of a game: nothing if they fail, and otherwise the question for the
history. -/
inductive Closes (seating : Seating) (before : List Event) :
    Except GameError Verdict → List Event → Except GameError GameRecord → Prop where
  | failed {e} : Closes seating before (.error e) before (.error e)
  | asked {v p label x rest r} : moves rest = [] →
      (∀ record, r = .ok record → ∃ history board, record = recordOf seating v history board) →
      Closes seating before (.ok v) (before ++ asked p label "history" x :: rest) r

section Reached

variable {engines : Engines α β} {c : GameConfig} {seating : Seating} {s s' s₁ s₂ : States α β}
  {limits otherLimits turns events : List Event} {rt : Except GameError Verdict}
  {r : Except GameError GameRecord}

/-- The turns of a game, from its first. -/
abbrev allTurns (engines : Engines α β) (c : GameConfig) (seating : Seating) : Part α β Verdict :=
  playTurns engines c seating (UInt32.size - 1) 0 .black (startClocks c)

theorem Configured.mirror (h : Configured engines c s limits otherLimits s') :
    Configured engines.mirror c.mirror s.mirror (otherLimits.map .mirror) (limits.map .mirror)
      s'.mirror := by
  obtain ⟨s₁, ha, hb⟩ := h
  obtain ⟨s₁', hb', ha'⟩ := limits_commute ha hb
  exact ⟨s₁'.mirror, mirrors_requireAll .b _ hb', mirrors_requireAll .a _ ha'⟩

/-- A game in which an engine does not accept its limits asks nobody for a move. Any other game comes
to its turns. -/
theorem game_turns (h : (game engines c seating).Brings s events r s') :
    ((∀ q ∈ requests events, q.command ≠ "gen") ∧ (∃ e, r = .error e) ∧
      ∀ limits otherLimits s₁, ¬ Configured engines c s limits otherLimits s₁) ∨
      ∃ limits otherLimits s₁ turns rt s₂, Configured engines c s limits otherLimits s₁ ∧
        (allTurns engines c seating).Brings s₁ turns rt s₂ ∧
        Closes seating (limits ++ otherLimits ++ turns) rt events r := by
  unfold game at h
  have hplain : ∀ {q : Player} {clock : ClockSettings} {events : List Event}
      {r : Except GameError Unit}, AskCourse q (limitTexts clock) events r →
      ∀ request ∈ requests events, request.command ≠ "gen" := by
    intro q clock events r hq request hrequest
    obtain ⟨word, hword, hpre, -⟩ := hq.prefix_asks
    exact (plain_limitTexts clock _ (hword.of_mem (hpre.subset hrequest)).2.1).1
  rcases Part.Brings.of_bind h with ⟨e, ha, rfl⟩ | ⟨⟨⟩, s₁, limits, rest, ha, h₁, rfl⟩
  · left
    refine ⟨hplain (requireAll_course ha), ⟨e, rfl⟩, ?_⟩
    rintro limits otherLimits s₁ ⟨s₀, ha', -⟩
    cases (ha.unique ha').2.1
  rcases Part.Brings.of_bind h₁ with ⟨e, hb, rfl⟩ | ⟨⟨⟩, s₂, otherLimits, rest, hb, h₂, rfl⟩
  · left
    refine ⟨fun request hrequest => ?_, ⟨e, rfl⟩, ?_⟩
    · rw [requests_append] at hrequest
      rcases List.mem_append.mp hrequest with hrequest | hrequest
      · exact hplain (requireAll_course ha) request hrequest
      · exact hplain (requireAll_course hb) request hrequest
    · rintro limits otherLimits s₁ ⟨s₀, ha', hb'⟩
      obtain ⟨-, -, rfl⟩ := ha.unique ha'
      cases (hb.unique hb').2.1
  right
  rcases Part.Brings.of_bind h₂ with ⟨e, ht, rfl⟩ | ⟨v, s₃, turns, rest, ht, h₃, rfl⟩
  · refine ⟨limits, otherLimits, s₂, _, _, _, ⟨s₁, ha, hb⟩, ht, ?_⟩
    rw [← List.append_assoc]
    exact .failed
  refine ⟨limits, otherLimits, s₂, turns, _, _, ⟨s₁, ha, hb⟩, ht, ?_⟩
  simp only [← List.append_assoc]
  obtain ⟨label, history, ⟨e, he, rfl, rfl⟩ | ⟨answer, s₄, rest, hh, h₄, rfl⟩⟩ :=
    Part.Brings.of_require (Part.Brings.of_survivor h₃)
  · exact .asked rfl (fun _ => nofun)
  obtain ⟨label', board, ⟨e, he, rfl, rfl⟩ | ⟨answer', s₅, rest, hboard, h₅, rfl⟩⟩ :=
    Part.Brings.of_require h₄
  · exact .asked rfl (fun _ => nofun)
  obtain ⟨rfl, rfl, -⟩ := Part.Brings.of_pure h₅
  refine .asked rfl fun record hrecord => ⟨answer, answer', ?_⟩
  cases hrecord
  rfl

/-- What a game with accepted limits comes to is determined by its turns. -/
theorem Configured.closes (hc : Configured engines c s limits otherLimits s₁)
    (ht : (allTurns engines c seating).Brings s₁ turns rt s₂)
    (h : (game engines c seating).Brings s events r s') :
    Closes seating (limits ++ otherLimits ++ turns) rt events r := by
  rcases game_turns h with ⟨-, -, hnot⟩ | ⟨limits', otherLimits', s₁', turns', rt', s₂', hc', ht', hcl⟩
  · exact absurd hc (hnot _ _ _)
  obtain ⟨s₀, ha, hb⟩ := hc
  obtain ⟨s₀', ha', hb'⟩ := hc'
  obtain ⟨rfl, -, rfl⟩ := ha.unique ha'
  obtain ⟨rfl, -, rfl⟩ := hb.unique hb'
  obtain ⟨rfl, rfl, -⟩ := ht.unique ht'
  exact hcl

/-- A game that comes to its turns, and its mirror image: the same turns follow the same limits, in
the other order. -/
theorem play_turns (engines : Engines α β) (s : States α β) (seating : Seating) (c : GameConfig) :
    ((∀ q ∈ requests (play engines s seating c).events, q.command ≠ "gen") ∧
      ∃ e, (play engines s seating c).result = .error e) ∨
    ∃ limits otherLimits s₁ turns rt s₂, Configured engines c s limits otherLimits s₁ ∧
      (allTurns engines c seating).Brings s₁ turns rt s₂ ∧
      Closes seating (limits ++ otherLimits ++ turns) rt
        (play engines s seating c).events (play engines s seating c).result ∧
      Closes seating.mirror ((otherLimits ++ limits ++ turns).map .mirror) (rt.map Verdict.mirror)
        (play engines.mirror s.mirror seating.mirror c.mirror).events
        (play engines.mirror s.mirror seating.mirror c.mirror).result := by
  rcases game_turns (play_brings engines s seating c) with ⟨hgen, he, -⟩ | ⟨limits, otherLimits, s₁, turns, rt, s₂, hc, ht, hcl⟩
  · exact .inl ⟨hgen, he⟩
  · right
    refine ⟨limits, otherLimits, s₁, turns, rt, s₂, hc, ht, hcl, ?_⟩
    rw [List.map_append, List.map_append]
    exact hc.mirror.closes (mirrors_playTurns _ _ _ _ ht) (play_brings _ _ _ _)

end Reached

/-! ## What is asked before the end -/

/-- The requests of a game before the questions at the end. -/
def beforeClosing (events : List Event) : List Request :=
  (requests events).takeWhile fun r => r.command ≠ "history"

section Commands

variable {engines : Engines α β} {c : GameConfig} {seating : Seating} {s s' s₁ s₂ : States α β}
  {limits otherLimits turns events : List Event} {rt : Except GameError Verdict}
  {r : Except GameError GameRecord} {p : Player} {rs : List Request}

theorem commandsTo_mirror (p : Player) (rs : List Request) :
    commandsTo p.other (rs.map Request.mirror) = commandsTo p rs := by
  unfold commandsTo
  rw [List.filterMap_map]
  congr 1
  funext r
  obtain ⟨player, command, limit, x⟩ := r
  cases player <;> cases p <;> rfl

theorem Asks.commandsTo_eq_nil {q : Player} {commands : List String} (h : Asks q commands rs)
    (hq : q ≠ p) : commandsTo p rs = [] := by
  refine List.filterMap_eq_nil_iff.mpr fun r hr => if_neg ?_
  rw [(h.of_mem hr).1]
  exact hq

/-- Each engine is told its own limits only. -/
theorem Configured.commandsTo_comm (h : Configured engines c s limits otherLimits s') (p : Player) :
    commandsTo p (requests otherLimits ++ requests limits) =
      commandsTo p (requests limits ++ requests otherLimits) := by
  obtain ⟨s₁, ha, hb⟩ := h
  obtain ⟨word, hword, -, hall⟩ := (requireAll_course ha).prefix_asks
  obtain ⟨word', hword', -, hall'⟩ := (requireAll_course hb).prefix_asks
  rw [hall rfl, hall' rfl, commandsTo_append, commandsTo_append]
  cases p with
  | a =>
    have hnil : commandsTo .a word' = [] := hword'.commandsTo_eq_nil (by decide)
    rw [hnil, List.append_nil, List.nil_append]
  | b =>
    have hnil : commandsTo .b word = [] := hword.commandsTo_eq_nil (by decide)
    rw [hnil, List.append_nil, List.nil_append]

theorem Configured.moves_eq_nil (h : Configured engines c s limits otherLimits s') :
    moves limits = [] ∧ moves otherLimits = [] := by
  obtain ⟨s₁, ha, hb⟩ := h
  exact ⟨((requireAll_course ha).reports (plain_limitTexts _)).2,
    ((requireAll_course hb).reports (plain_limitTexts _)).2⟩

theorem TurnCommand.ne_history {command : String} (h : TurnCommand command) :
    command ≠ "history" := by
  cases h with
  | gen => decide
  | play token => intro h; simpa using congrArg String.toList h
  | time ms => intro h; simpa using congrArg String.toList h

/-- A turn begins with a request for a move. -/
theorem TurnCourse.exists_gen {n : ℕ} {clocks : ByPlayer Clock} {r : Except GameError TurnEnd}
    (h : TurnCourse c seating n clocks events r) : ∃ q ∈ requests events, q.command = "gen" := by
  have hgen : ∀ label x rest,
      ∃ q ∈ requests (genEvents c seating n clocks label x ++ rest), q.command = "gen" := by
    intro label x rest
    rw [requests_append]
    exact ⟨_, List.mem_append_left _ List.mem_cons_self, rfl⟩
  cases h with
  | timeout => exact hgen _ _ _
  | genFailed => rw [← List.append_nil (genEvents ..)]; exact hgen _ _ _
  | emptyMove => rw [← List.append_nil (genEvents ..)]; exact hgen _ _ _
  | noMove => exact hgen _ _ _
  | played => exact hgen _ _ _

theorem TurnsCourse.exists_gen {clocks : ByPlayer Clock} (h : TurnsCourse c seating 0 clocks events rt) :
    ∃ q ∈ requests events, q.command = "gen" := by
  have hquiet : ∀ {n m : ℕ} {clocks clocks' : ByPlayer Clock} {events : List Event},
      QuietTurns c seating n clocks events m clocks' →
      n = m ∨ ∃ q ∈ requests events, q.command = "gen" := by
    intro n m clocks clocks' events h
    cases h with
    | none => exact .inl rfl
    | next _ hturn _ =>
      obtain ⟨q, hq, hgen⟩ := hturn.exists_gen
      rw [requests_append]
      exact .inr ⟨q, List.mem_append_left _ hq, hgen⟩
  have hlast : ∀ {m : ℕ} {clocks : ByPlayer Clock} {events last : List Event}
      {r : Except GameError TurnEnd}, TurnCourse c seating m clocks last r →
      ∃ q ∈ requests (events ++ last), q.command = "gen" := by
    intro m clocks events last r h
    obtain ⟨q, hq, hgen⟩ := h.exists_gen
    rw [requests_append]
    exact ⟨q, List.mem_append_right _ hq, hgen⟩
  cases h with
  | counterFull hq hm =>
    rcases hquiet hq with rfl | hgen
    · exact absurd hm (by decide)
    · exact hgen
  | failed _ _ hturn => exact hlast hturn
  | ended _ _ hturn => exact hlast hturn

/-- Before the questions at the end somebody is asked for a move, and nobody for the history. -/
theorem Configured.requests_turns (h : Configured engines c s limits otherLimits s₁)
    (ht : (allTurns engines c seating).Brings s₁ turns rt s₂) :
    (∀ q ∈ requests (limits ++ otherLimits ++ turns), q.command ≠ "history") ∧
      ∃ q ∈ requests turns, q.command = "gen" := by
  obtain ⟨s₀, ha, hb⟩ := h
  have hcourse : TurnsCourse c seating 0 (startClocks c) turns rt := playTurns_course rfl ht
  refine ⟨fun q hq => ?_, hcourse.exists_gen⟩
  have hlimits : ∀ {p : Player} {clock : ClockSettings} {events : List Event},
      AskCourse p (limitTexts clock) events (.ok ()) → q ∈ requests events →
      q.command ≠ "history" := by
    intro p clock events hcourse hq
    obtain ⟨word, hword, -, hall⟩ := hcourse.prefix_asks
    rw [hall rfl] at hq
    have hmem := (hword.of_mem hq).2.1
    simp only [limitTexts, List.mem_cons, List.not_mem_nil, or_false] at hmem
    intro heq
    rw [heq] at hmem
    rcases hmem with hmem | hmem | hmem <;> simpa using congrArg String.toList hmem
  rw [requests_append, requests_append] at hq
  rcases List.mem_append.mp hq with hq | hq
  · rcases List.mem_append.mp hq with hq | hq
    · exact hlimits (requireAll_course ha) hq
    · exact hlimits (requireAll_course hb) hq
  · exact (hcourse.turnCommand (budgeted_startClocks c) q hq).ne_history

end Commands

/-! ## A game and its mirror image -/

section Closing

variable {seating : Seating} {before events : List Event} {rt : Except GameError Verdict}
  {r : Except GameError GameRecord} {e : GameError}

theorem Closes.of_error (h : Closes seating before (.error e) events r) :
    events = before ∧ r = .error e := by
  cases h
  exact ⟨rfl, rfl⟩

/-- A game that fails before the question for the history fails in its turns. -/
theorem Closes.error_of_silent (h : Closes seating before rt events r) (hr : r = .error e)
    (hsilent : ∀ q ∈ requests events, q.command ≠ "history") : rt = .error e := by
  cases h with
  | failed => exact congrArg Except.error (Except.error.inj hr)
  | asked =>
    rw [requests_append] at hsilent
    exact absurd rfl (hsilent _ (List.mem_append_right _ List.mem_cons_self))

/-- A game with a record. -/
theorem Closes.record {record : GameRecord} (h : Closes seating before rt events r)
    (hr : r = .ok record) (hbefore : ∀ q ∈ requests before, q.command ≠ "history") :
    beforeClosing events = requests before ∧ moves events = moves before ∧
      ∃ v history board, rt = .ok v ∧ record = recordOf seating v history board := by
  cases h with
  | failed => cases hr
  | @asked v p label x rest _ hmoves hrecord =>
    obtain ⟨history, board, hrecord⟩ := hrecord record hr
    refine ⟨?_, ?_, v, history, board, rfl, hrecord⟩
    · unfold beforeClosing
      rw [requests_append, List.takeWhile_append_of_pos (by simpa using hbefore)]
      exact List.append_nil _
    · rw [moves_append]
      show moves before ++ moves rest = moves before
      rw [hmoves, List.append_nil]

end Closing

/-- The record of the same game with the players exchanged. -/
structure MirrorsRecord (r r' : GameRecord) : Prop where
  winner_eq : r'.winner = r.winner
  termination_eq : r'.termination = r.termination
  turns_eq : r'.turns = r.turns
  winningPlayer_eq : r'.winningPlayer = r.winningPlayer.map Player.other
  remaining_eq : r'.remaining = r.remaining.mirror

/-- A game fails after somebody was asked for a move and before anybody is asked for the history. -/
structure FailsInTurns (o : Outcome α β) (e : GameError) : Prop where
  result_eq : o.result = .error e
  gen : ∃ q ∈ requests o.events, q.command = "gen"
  silent : ∀ q ∈ requests o.events, q.command ≠ "history"

/-- Two games come to the same, but for the places of the engines. -/
structure EvenHanded (first : Outcome α β) (second : Outcome β α) : Prop where
  /-- The records agree. -/
  records : ∀ r r', first.result = .ok r → second.result = .ok r' → MirrorsRecord r r'
  /-- Up to the questions at the end each engine is asked the same, with the same limits. -/
  commands : ∀ r r', first.result = .ok r → second.result = .ok r' → ∀ p,
    commandsTo p.other (beforeClosing second.events) = commandsTo p (beforeClosing first.events)
  /-- The moves are the same. -/
  moves_eq : ∀ r r', first.result = .ok r → second.result = .ok r' →
    moves second.events = (moves first.events).map Move.mirror
  /-- If one fails in its turns, so does the other, and for the same reason. -/
  failures : ∀ e, FailsInTurns first e ↔ FailsInTurns second e

section Image

variable (engines : Engines α β) (s : States α β) (seating : Seating) (c : GameConfig)

theorem FailsInTurns.mirror {e : GameError} (h : FailsInTurns (play engines s seating c) e) :
    FailsInTurns (play engines.mirror s.mirror seating.mirror c.mirror) e := by
  rcases play_turns engines s seating c with
    ⟨hno, -⟩ | ⟨limits, otherLimits, s₁, turns, rt, s₂, hc, ht, hcl, himage⟩
  · obtain ⟨q, hq, hgen⟩ := h.gen
    exact absurd hgen (hno q hq)
  obtain rfl := hcl.error_of_silent h.result_eq h.silent
  obtain ⟨hevents, hresult⟩ := himage.of_error
  obtain ⟨hsilent, q, hq, hgen⟩ := hc.mirror.requests_turns (mirrors_playTurns _ _ _ _ ht)
  refine ⟨hresult, ⟨q, ?_, hgen⟩, ?_⟩
  · rw [hevents, List.map_append, requests_append]
    exact List.mem_append_right _ hq
  · rw [hevents, List.map_append, List.map_append]
    exact hsilent

/-- **The referee does not favour a place.** If the engines change places together with their clocks
and colours, the game comes to the same. -/
theorem play_evenHanded :
    EvenHanded (play engines s seating c)
      (play engines.mirror s.mirror seating.mirror c.mirror) := by
  have hrecords : ∀ r r', (play engines s seating c).result = .ok r →
      (play engines.mirror s.mirror seating.mirror c.mirror).result = .ok r' →
      MirrorsRecord r r' ∧
      (∀ p, commandsTo p.other
          (beforeClosing (play engines.mirror s.mirror seating.mirror c.mirror).events) =
        commandsTo p (beforeClosing (play engines s seating c).events)) ∧
      moves (play engines.mirror s.mirror seating.mirror c.mirror).events =
        (moves (play engines s seating c).events).map Move.mirror := by
    intro r r' hr hr'
    rcases play_turns engines s seating c with
      ⟨-, e, he⟩ | ⟨limits, otherLimits, s₁, turns, rt, s₂, hc, ht, hcl, himage⟩
    · cases hr.symm.trans he
    have hsilent := (hc.requests_turns ht).1
    have hsilent' := (hc.mirror.requests_turns (mirrors_playTurns _ _ _ _ ht)).1
    rw [← List.map_append, ← List.map_append] at hsilent'
    obtain ⟨hbefore, hmoves, v, history, board, rfl, rfl⟩ := hcl.record hr hsilent
    obtain ⟨hbefore', hmoves', v', history', board', hv, rfl⟩ := himage.record hr' hsilent'
    cases hv
    refine ⟨⟨rfl, rfl, rfl, ?_, rfl⟩, fun p => ?_, ?_⟩
    · show v.winner.map seating.mirror.playerOf = (v.winner.map seating.playerOf).map Player.other
      rw [Option.map_map]
      congr 1
      funext color
      exact seating.playerOf_mirror color
    · rw [hbefore, hbefore', requests_mirror, commandsTo_mirror]
      simp only [requests_append]
      rw [commandsTo_append, hc.commandsTo_comm, ← commandsTo_append]
    · obtain ⟨hnone, hnone'⟩ := hc.moves_eq_nil
      rw [hmoves, hmoves', moves_mirror]
      simp only [moves_append, hnone, hnone', List.nil_append]
  exact {
    records := fun r r' hr hr' => (hrecords r r' hr hr').1
    commands := fun r r' hr hr' => (hrecords r r' hr hr').2.1
    moves_eq := fun r r' hr hr' => (hrecords r r' hr hr').2.2
    failures := by
      intro e
      refine ⟨FailsInTurns.mirror engines s seating c, fun h => ?_⟩
      have hback := FailsInTurns.mirror _ _ _ _ h
      simpa using hback }

end Image

end Game

end EngineDuel

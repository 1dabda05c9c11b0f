import EngineDuel.Host.RunningEngine
import EngineDuel.Host.ScriptedProgram
import EngineDuel.Proofs.Scripted.Lockstep
import Mathlib.Data.Nat.Find

/-!
# Games between scripted engines

The options of two scripted engines foretell their game (`duel_foretold`). In turn `t` the mover may
not answer, or have no move, or think for too long; after its move the engines may both declare a
win, or only one of them; and the turn may be the last (`finish?`). The first turn in which one of
this happens decides the game.

1. Between two turns both engines have seen the same moves (`InSync`), and each request keeps them in
   step (`InSync.require`).
2. A turn is decided as foretold, or leaves the engines in step after one more move (`turn_decided`).
3. So the turns go on up to the first that is decided (`turns_decided`), by induction on how often the
   turn counter can still be raised. Then an engine that is still in step shows the moves and the board
   (`closing_read`).
-/

namespace EngineDuel.Scripted

open EngineDuel.Game EngineDuel.Wire

/-! ## What the options foretell -/

/-- How a game is decided. -/
inductive Finish where
  | ended (k : Termination)
  /-- Only one of the engines declares a win. -/
  | mismatch
  deriving DecidableEq, Repr

/-- What happens after the move of turn `t`, if it decides the game. -/
def moveFinish? (o : ByPlayer Options) (limit : UInt32) (t : ℕ) : Option Finish :=
  if ¬ (o.a.finishAfter = some t ↔ o.b.finishAfter = some t) then some .mismatch
  else if o.a.finishAfter = some t ∧ o.b.finishAfter = some t then some (.ended .declared)
  else if limit.toNat ≤ t then some (.ended .turnLimit)
  else none

/-- What happens in turn `t`, if it decides the game. For some players it takes too long to think
about a move. -/
def finish? (o : ByPlayer Options) (seating : Seating) (tooSlow : Player → Bool) (limit : UInt32)
    (t : ℕ) : Option Finish :=
  if (o.get (mover seating t)).stallAt = some (t - 1) then some (.ended .timeout)
  else if (o.get (mover seating t)).noneAt = some (t - 1) then some (.ended .noLegalMove)
  else if tooSlow (mover seating t) then some (.ended .timeout)
  else moveFinish? o limit t

/-- Whether a player's engine takes too long to think about a move. -/
def tooSlow (pace : Pace) (o : ByPlayer Options) (c : GameConfig) (p : Player) : Bool :=
  pace.late (.ofMillis (o.get p).thinkMs.toNat) (c.genLimit p)

/-- Turn `t` is the first that decides the game, and decides it so. -/
structure IsFirst (finish? : ℕ → Option Finish) (t : ℕ) (f : Finish) : Prop where
  pos : 1 ≤ t
  finish_eq : finish? t = some f
  before : ∀ u, 1 ≤ u → u < t → finish? u = none

theorem IsFirst.unique {finish? : ℕ → Option Finish} {t u : ℕ} {f g : Finish}
    (h : IsFirst finish? t f) (h' : IsFirst finish? u g) : t = u ∧ f = g := by
  rcases Nat.lt_trichotomy t u with hlt | rfl | hlt
  · cases h.finish_eq.symm.trans (h'.before t h.pos hlt)
  · exact ⟨rfl, Option.some.inj (h.finish_eq.symm.trans h'.finish_eq)⟩
  · cases h'.finish_eq.symm.trans (h.before u h'.pos hlt)

/-- Who wins a game that ends like this in turn `t`. -/
def winnerBy (t : ℕ) : Termination → Option Color
  | .timeout | .noLegalMove => some (turnColor t).flip
  | .declared => some (turnColor t)
  | .turnLimit => none

/-- How many moves are played in a game that ends like this in turn `t`. -/
def movesBy (t : ℕ) : Termination → ℕ
  | .timeout | .noLegalMove => t - 1
  | .declared | .turnLimit => t

/-- The failure of a game in which only one engine declares a win in turn `t`. -/
def mismatchError (o : ByPlayer Options) (labels : ByPlayer String) (seating : Seating) (t : ℕ) :
    GameError :=
  .winnerMismatch (.ofNat t) (String.ofList (coordinate (t - 1)))
    (labels.get (mover seating t)) (declared? (o.get (mover seating t)) t)
    (labels.get (mover seating t).other) (declared? (o.get (mover seating t).other) t)

/-- The record of a game that ends like this in turn `t`. -/
structure Foretold (seating : Seating) (t : ℕ) (k : Termination) (record : GameRecord) : Prop where
  seating_eq : record.seating = seating
  winner_eq : record.winner = winnerBy t k
  termination_eq : record.termination = k
  turns_eq : record.turns.toNat = t
  history_eq : record.history = historyText (movesBy t k)
  board_eq : record.board = boardText (movesBy t k)

/-- What comes of a game that is decided so in turn `t`. -/
inductive ComesTo (o : ByPlayer Options) (labels : ByPlayer String) (seating : Seating) (t : ℕ) :
    Finish → Except GameError GameRecord → Prop where
  | ended {k record} : Foretold seating t k record → ComesTo o labels seating t (.ended k) (.ok record)
  | mismatch : ComesTo o labels seating t .mismatch (.error (mismatchError o labels seating t))

/-! ## What a turn comes to -/

section Turn

variable {α β : Type} {engines : Engines α β} {c : GameConfig} {seating : Seating} {n : ℕ}
  {clocks : ByPlayer Clock} {s s' : States α β}

/-- The mover of turn `n` is asked for a move. -/
abbrev askedMove (engines : Engines α β) (c : GameConfig) (seating : Seating) (n : ℕ)
    (clocks : ByPlayer Clock) (s : States α β) : Exchange × States α β :=
  engines.request s (mover seating n) "gen" (some (c.moveLimit (clocks.get (mover seating n))))

section Move

variable {token : String} {elapsed : UInt64} {s₁ s₂ s₃ : States α β}

/-- Engines that declare different results make the game fail. -/
theorem ends_playMove_mismatch {own others : Option String}
    (hown : (engines.require (mover seating n) ("play " ++ token)).Ends s (.ok own) s₁)
    (hothers : (engines.require (mover seating n).other ("play " ++ token)).Ends s₁ (.ok others) s₂)
    (hne : own ≠ others) :
    (playMove engines c seating (.ofNat n) (turnColor n) clocks token elapsed).Ends s
      (.error (.winnerMismatch (.ofNat n) token (engines.label s₂ (mover seating n)) own
        (engines.label s₂ (mover seating n).other) others)) s₂ := by
  unfold playMove
  refine hown.bind (hothers.bind ?_)
  rw [if_pos hne]
  exact (ends_labelOf _).bind ((ends_labelOf _).bind (ends_fail _))

/-- A result that both engines declare ends the game. -/
theorem ends_playMove_declared {text : String}
    (hown : (engines.require (mover seating n) ("play " ++ token)).Ends s (.ok (some text)) s₁)
    (hothers : (engines.require (mover seating n).other ("play " ++ token)).Ends s₁
      (.ok (some text)) s₂) :
    (playMove engines c seating (.ofNat n) (turnColor n) clocks token elapsed).Ends s
      (.ok (.over (declaredWinner text) .declared clocks)) s₂ := by
  unfold playMove
  refine hown.bind (hothers.bind ?_)
  rw [if_neg (not_not_intro rfl)]
  exact (ends_emit _).bind (ends_pure _)

/-- Without a result the mover is told its time, and the game goes on unless it was the last turn. -/
theorem ends_playMove_quiet {answer : Option String}
    (hown : (engines.require (mover seating n) ("play " ++ token)).Ends s (.ok none) s₁)
    (hothers : (engines.require (mover seating n).other ("play " ++ token)).Ends s₁ (.ok none) s₂)
    (htime : (engines.require (mover seating n) (clocks.get (mover seating n)).credit.totalCommand).Ends
      s₂ (.ok answer) s₃) :
    (playMove engines c seating (.ofNat n) (turnColor n) clocks token elapsed).Ends s
      (.ok (if c.isLastTurn (.ofNat n) then .over none .turnLimit (credited seating n clocks)
        else .goOn (credited seating n clocks))) s₃ := by
  unfold playMove
  refine hown.bind (hothers.bind ?_)
  rw [if_neg (not_not_intro rfl)]
  refine (ends_emit _).bind (htime.bind ?_)
  split_ifs
  · exact ends_pure _
  · exact ends_pure _

end Move

/-- A mover that does not answer in time loses. -/
theorem ends_playTurn_timeout {label command : String} {limit : Duration}
    (h : (askedMove engines c seating n clocks s).1.result = .error (.timeout label command limit)) :
    (playTurn engines c seating (.ofNat n) (turnColor n) clocks).Ends s
      (.ok (.over (some (turnColor n).flip) .timeout
        (charged seating n clocks (askedMove engines c seating n clocks s).1)))
      (engines.terminate (askedMove engines c seating n clocks s).2 (mover seating n)) := by
  rw [askedMove, mover_eq] at h
  unfold playTurn
  refine (ends_ask _ _ _).bind ((ends_passOn _ _ _).bind ?_)
  simp only [h]
  exact (ends_stop _).bind (ends_pure _)

/-- A mover that has no move loses. -/
theorem ends_playTurn_noMove
    (h : (askedMove engines c seating n clocks s).1.result = .ok (some "none")) :
    (playTurn engines c seating (.ofNat n) (turnColor n) clocks).Ends s
      (.ok (.over (some (turnColor n).flip) .noLegalMove
        (charged seating n clocks (askedMove engines c seating n clocks s).1)))
      (askedMove engines c seating n clocks s).2 := by
  rw [askedMove, mover_eq] at h
  unfold playTurn
  refine (ends_ask _ _ _).bind ((ends_passOn _ _ _).bind ?_)
  simp only [h]
  exact (ends_labelOf _).bind ((ends_emit _).bind (ends_pure _))

/-- A move is played. -/
theorem ends_playTurn_move {token : String} {r : Except GameError TurnEnd}
    (h : (askedMove engines c seating n clocks s).1.result = .ok (some token))
    (hnone : token ≠ "none")
    (hmove : (playMove engines c seating (.ofNat n) (turnColor n)
        (charged seating n clocks (askedMove engines c seating n clocks s).1) token
        (askedMove engines c seating n clocks s).1.took.millis).Ends
      (askedMove engines c seating n clocks s).2 r s') :
    (playTurn engines c seating (.ofNat n) (turnColor n) clocks).Ends s r s' := by
  rw [askedMove, mover_eq] at h
  unfold playTurn
  refine (ends_ask _ _ _).bind ((ends_passOn _ _ _).bind ?_)
  simp only [h, if_neg hnone]
  exact (ends_labelOf _).bind ((ends_emit _).bind hmove)

end Turn

/-- How turn `t` ends, if this is foretold for it. -/
inductive Decides (o : ByPlayer Options) (labels : ByPlayer String) (seating : Seating)
    (c : GameConfig) (t : ℕ) :
    Option Finish → Except GameError TurnEnd → States (Session Talker) (Session Talker) → Prop where
  | goOn {clocks s} : Budgeted c clocks → InSync o labels ⟨t, t⟩ s →
      Decides o labels seating c t none (.ok (.goOn clocks)) s
  | mismatch {s} :
      Decides o labels seating c t (some .mismatch) (.error (mismatchError o labels seating t)) s
  | ended {k clocks s} : Readable o labels (movesBy t k) s →
      Decides o labels seating c t (some (.ended k)) (.ok (.over (winnerBy t k) k clocks)) s

/-- How the turns end that are decided so in turn `t`. -/
inductive Settles (o : ByPlayer Options) (labels : ByPlayer String) (seating : Seating) (t : ℕ) :
    Finish → Except GameError Verdict → States (Session Talker) (Session Talker) → Prop where
  | mismatch {s} :
      Settles o labels seating t .mismatch (.error (mismatchError o labels seating t)) s
  | ended {k clocks s} : Readable o labels (movesBy t k) s →
      Settles o labels seating t (.ended k) (.ok ⟨winnerBy t k, k, .ofNat t, clocks⟩) s

section Turns

variable {pace : Pace} {o : ByPlayer Options} {labels : ByPlayer String} {seating : Seating}
  {c : GameConfig} {limit : UInt32} {n : ℕ} {clocks : ByPlayer Clock}
  {s : States (Session Talker) (Session Talker)}

theorem declaredWinner_name (color : Color) : declaredWinner (color.name ++ " wins") = some color := by
  cases color <;> decide

theorem declared?_eq_iff (q : Player) (t : ℕ) :
    declared? (o.get q) t = declared? (o.get q.other) t ↔
      (o.a.finishAfter = some t ↔ o.b.finishAfter = some t) := by
  unfold declared?
  by_cases ha : o.a.finishAfter = some t <;> by_cases hb : o.b.finishAfter = some t <;>
    cases q <;> simp [ByPlayer.get, Player.other, ha, hb]

/-- If the engines agree on it, either of them shows whether a turn ends the game. -/
theorem finishAfter_eq_iff (q : Player) {t : ℕ}
    (h : o.a.finishAfter = some t ↔ o.b.finishAfter = some t) :
    (o.get q).finishAfter = some t ↔ o.a.finishAfter = some t := by
  cases q with
  | a => exact Iff.rfl
  | b => exact h.symm

/-- A move of turn `n + 1` has the effects that are foretold. -/
theorem move_decided (h : InSync o labels ⟨n, n⟩ s) (ho : ∀ p, (o.get p).Plain)
    (hlimit : c.maxTurns = some limit) (hn : n + 1 < UInt32.size) (hb : Budgeted c clocks)
    (elapsed : UInt64) :
    ∃ r s', (playMove (duel pace) c seating (.ofNat (n + 1)) (turnColor (n + 1)) clocks
        (String.ofList (coordinate n)) elapsed).Ends s r s' ∧
      Decides o labels seating c (n + 1) (moveFinish? o limit (n + 1)) r s' := by
  obtain ⟨s₁, s₂, hown, hothers, h₂⟩ := h.require_plays ho (mover seating (n + 1))
  have hsame := @declared?_eq_iff o (mover seating (n + 1)) (n + 1)
  unfold moveFinish?
  by_cases hagree : o.a.finishAfter = some (n + 1) ↔ o.b.finishAfter = some (n + 1)
  · rw [if_neg (not_not_intro hagree)]
    rw [← hsame.mpr hagree] at hothers
    by_cases hfinish : o.a.finishAfter = some (n + 1)
    · rw [declared?, if_pos ((finishAfter_eq_iff _ hagree).mpr hfinish)] at hown hothers
      rw [if_pos ⟨hfinish, hagree.mp hfinish⟩]
      refine ⟨_, s₂, ends_playMove_declared hown hothers, ?_⟩
      rw [declaredWinner_name]
      exact .ended h₂.readable
    · rw [declared?, if_neg (mt (finishAfter_eq_iff _ hagree).mp hfinish)] at hown hothers
      rw [if_neg fun h => hfinish h.1]
      obtain ⟨s₃, htime, h₃⟩ := h₂.require_limit (ho (mover seating (n + 1))) (.head _)
        (clocks.get (mover seating (n + 1))).credit.remaining.toNat
      refine ⟨_, s₃, ends_playMove_quiet hown hothers htime, ?_⟩
      by_cases hlast : limit.toNat ≤ n + 1
      · rw [if_pos hlast, if_pos ((isLastTurn_iff hn).mpr ⟨limit, hlimit, hlast⟩)]
        exact .ended h₃.readable
      · have hnext : ¬ c.isLastTurn (.ofNat (n + 1)) = true := by
          intro h
          obtain ⟨limit', hlimit', hle⟩ := (isLastTurn_iff hn).mp h
          cases hlimit.symm.trans hlimit'
          exact hlast hle
        rw [if_neg hlast, if_neg hnext]
        exact .goOn hb.credited h₃
  · rw [if_pos hagree]
    refine ⟨_, s₂, ends_playMove_mismatch hown hothers (mt hsame.mp hagree), ?_⟩
    rw [h₂.label_eq, h₂.label_eq]
    exact .mismatch

/-- The engine's names of fields are not the sign of having no move. -/
theorem coordinate_ne_none (n : ℕ) : String.ofList (coordinate n) ≠ "none" := by
  intro h
  have hlist : coordinate n = "none".toList := by rw [← h, String.toList_ofList]
  rw [coordinate_eq, show "none".toList = ['n', 'o', 'n', 'e'] from rfl, List.cons.injEq] at hlist
  have hdigit : Char.isDigit 'o' = true := by
    refine @Nat.isDigit_of_mem_toDigits 10 (n / 15 + 1) _ (by decide) (by decide) ?_
    rw [hlist.2]
    exact List.mem_cons_self
  cases hdigit

/-- **Turn `n + 1` is decided as foretold.** -/
theorem turn_decided (h : InSync o labels ⟨n, n⟩ s) (ho : ∀ p, (o.get p).Plain)
    (hlimit : c.maxTurns = some limit) (hn : n + 1 < UInt32.size) (hb : Budgeted c clocks) :
    ∃ r s', (playTurn (duel pace) c seating (.ofNat (n + 1)) (turnColor (n + 1)) clocks).Ends s r s' ∧
      Decides o labels seating c (n + 1) (finish? o seating (tooSlow pace o c) limit (n + 1)) r s' := by
  unfold finish?
  rw [Nat.add_sub_cancel]
  by_cases hstall : (o.get (mover seating (n + 1))).stallAt = some n
  · rw [if_pos hstall]
    obtain ⟨hresult, hread⟩ := h.request_gen_timeout (ho _) (.inl hstall)
    exact ⟨_, _, ends_playTurn_timeout hresult, .ended hread⟩
  rw [if_neg hstall]
  by_cases hnone : (o.get (mover seating (n + 1))).noneAt = some n
  · rw [if_pos hnone]
    have hthink : thinking (o.get (mover seating (n + 1))) n = .zero := if_pos hnone
    have hmove : ownMove (o.get (mover seating (n + 1))) n = "none" := if_pos hnone
    have htime := pace.late_zero (c.moveLimit (clocks.get (mover seating (n + 1))))
    rw [← hthink] at htime
    obtain ⟨hresult, hsync⟩ := h.request_gen (ho _) hstall htime
    rw [hmove] at hresult
    exact ⟨_, _, ends_playTurn_noMove hresult, .ended hsync.readable⟩
  rw [if_neg hnone]
  have hthink : thinking (o.get (mover seating (n + 1))) n = _ := if_neg hnone
  have hmove : ownMove (o.get (mover seating (n + 1))) n = _ := if_neg hnone
  have hbudget := hb.moveLimit_eq (mover seating (n + 1))
  by_cases hslow : tooSlow pace o c (mover seating (n + 1)) = true
  · rw [if_pos hslow]
    rw [tooSlow, ← hthink, ← hbudget] at hslow
    obtain ⟨hresult, hread⟩ := h.request_gen_timeout (ho _) (.inr hslow)
    exact ⟨_, _, ends_playTurn_timeout hresult, .ended hread⟩
  rw [if_neg hslow]
  rw [tooSlow, ← hthink, ← hbudget] at hslow
  obtain ⟨hresult, hsync⟩ := h.request_gen (ho _) hstall (Bool.eq_false_iff.mpr hslow)
  rw [hmove] at hresult
  obtain ⟨r, s', hends, hdecides⟩ := move_decided hsync ho hlimit hn (hb.charged _) _
  exact ⟨r, s', ends_playTurn_move hresult (coordinate_ne_none n) hends, hdecides⟩

/-- **The first turn that is decided ends the turns**: by induction on how often the counter can still
be raised. -/
theorem turns_decided {left t : ℕ} {f : Finish} (h : InSync o labels ⟨n, n⟩ s)
    (ho : ∀ p, (o.get p).Plain) (hlimit : c.maxTurns = some limit) (hb : Budgeted c clocks)
    (hleft : n + left + 1 = UInt32.size) (hn : n < t) (ht : t < UInt32.size)
    (hfinish : finish? o seating (tooSlow pace o c) limit t = some f)
    (hbefore : ∀ u, n < u → u < t → finish? o seating (tooSlow pace o c) limit u = none) :
    ∃ r s', (playTurns (duel pace) c seating left (.ofNat n) (turnColor (n + 1)) clocks).Ends s r s' ∧
      Settles o labels seating t f r s' := by
  induction left generalizing n clocks s with
  | zero => omega
  | succ left ih =>
    obtain ⟨r, s₁, hends, hdecides⟩ := turn_decided h ho hlimit (by omega) hb
    unfold playTurns
    simp only [ofNat_succ]
    by_cases hlast : n + 1 = t
    · subst hlast
      rw [hfinish] at hdecides
      cases hdecides with
      | mismatch => exact ⟨_, _, hends.bind_error, .mismatch⟩
      | ended hread => exact ⟨_, _, hends.bind (ends_pure _), .ended hread⟩
    · rw [hbefore (n + 1) (by omega) (by omega)] at hdecides
      cases hdecides with
      | goOn hb₁ h₁ =>
        obtain ⟨r, s', hrest, hsettles⟩ := ih h₁ hb₁ (by omega) (by omega)
          fun u hu => hbefore u (by omega)
        refine ⟨r, s', hends.bind ?_, hsettles⟩
        simp only [← turnColor_succ]
        exact hrest

/-- The last turn decides the game if no other does. -/
theorem finish?_ne_none {slow : Player → Bool} {t : ℕ} (h : limit.toNat ≤ t) :
    finish? o seating slow limit t ≠ none := by
  unfold finish? moveFinish?
  rw [if_pos h]
  split_ifs <;> nofun

theorem exists_isFirst (o : ByPlayer Options) (seating : Seating) (slow : Player → Bool)
    (limit : UInt32) :
    ∃ t f, IsFirst (finish? o seating slow limit) t f ∧ t < UInt32.size := by
  have hdecided : ∃ t, 1 ≤ t ∧ finish? o seating slow limit t ≠ none :=
    ⟨max 1 limit.toNat, Nat.le_max_left _ _, finish?_ne_none (Nat.le_max_right _ _)⟩
  obtain ⟨hpos, hfirst⟩ := Nat.find_spec hdecided
  obtain ⟨f, hf⟩ := Option.ne_none_iff_exists'.mp hfirst
  refine ⟨Nat.find hdecided, f, ⟨hpos, hf, fun u hu hlt => ?_⟩, ?_⟩
  · by_contra hsome
    exact Nat.find_min hdecided hlt ⟨hu, hsome⟩
  · have hle := Nat.find_min' hdecided
      ⟨Nat.le_max_left 1 limit.toNat, finish?_ne_none (Nat.le_max_right _ _)⟩
    exact lt_of_le_of_lt hle (max_lt (by decide) limit.toNat_lt)

end Turns

/-! ## The game -/

section Game

variable {pace : Pace} {o : ByPlayer Options} {labels : ByPlayer String} {n : ℕ}
  {s : States (Session Talker) (Session Talker)}

/-- The engine that is asked at the end shows the moves and the board. -/
theorem closing_read (h : Readable o labels n s) (ho : ∀ p, (o.get p).Plain) :
    ∃ reader s₁ s₂, (duel pace).survivor.Ends s (.ok reader) s ∧
      ((duel pace).require reader "history").Ends s (.ok (if n = 0 then none else some (historyText n)))
        s₁ ∧
      ((duel pace).require reader "board").Ends s₁ (.ok (some (boardText n))) s₂ := by
  have hhistory : IsLine "history" := by unfold IsLine; decide
  have hboard : IsLine "board" := by unfold IsLine; decide
  obtain ⟨s₁, hends₁, h₁, -⟩ :=
    require_inStep h (reacts_history (ho _) h.moves_eq) h.moves_eq hhistory
  obtain ⟨s₂, hends₂, -, -⟩ :=
    require_inStep h₁ (reacts_board (ho _) h₁.moves_eq) h₁.moves_eq hboard
  exact ⟨_, s₁, s₂, ends_survivor, hends₁, hends₂⟩

/-- What comes of a game is what its parts come to. -/
theorem play_result {α β : Type} {engines : Engines α β} {s s' : States α β} {seating : Seating}
    {c : GameConfig} {r : Except GameError GameRecord} (h : (game engines c seating).Ends s r s') :
    (play engines s seating c).result = r := by
  obtain ⟨events, h⟩ := h
  change (game engines c seating).run s = _ at h
  unfold play
  rw [h]

/-- **Two scripted engines play the game that their options describe.** Unless they refuse a command
or declare other winners, and if the rules name a last turn, the first turn that decides the game
decides it as foretold. -/
theorem duel_foretold (pace : Pace) (o : ByPlayer Options) (ho : ∀ p, (o.get p).Plain)
    (labels : ByPlayer String) (limits : ByPlayer (Option Duration)) (seating : Seating)
    (c : GameConfig) {limit : UInt32} (hlimit : c.maxTurns = some limit) :
    ∃ t f, IsFirst (finish? o seating (tooSlow pace o c) limit) t f ∧
      ComesTo o labels seating t f (play (duel pace)
        ⟨session labels.a limits.a o.a, session labels.b limits.b o.b⟩ seating c).result := by
  obtain ⟨t, f, hfirst, ht⟩ := exists_isFirst o seating (tooSlow pace o c) limit
  refine ⟨t, f, hfirst, ?_⟩
  have hstart : InSync o labels ⟨0, 0⟩
      ⟨session labels.a limits.a o.a, session labels.b limits.b o.b⟩ := by
    intro p
    cases p
    · exact inStep_session _ _ _
    · exact inStep_session _ _ _
  obtain ⟨s₁, hends₁, h₁⟩ := hstart.requireAll_limits (ho .a) pace (.start c.clocks.a)
  obtain ⟨s₂, hends₂, h₂⟩ := h₁.requireAll_limits (ho .b) pace (.start c.clocks.b)
  obtain ⟨r, s₃, hends₃, hsettles⟩ := turns_decided h₂ ho hlimit (budgeted_startClocks c)
    (show 0 + (UInt32.size - 1) + 1 = UInt32.size from rfl) hfirst.pos ht hfirst.finish_eq
    hfirst.before
  cases hsettles with
  | mismatch =>
    have hgame : (game (duel pace) c seating).Ends _ _ _ :=
      hends₁.bind (hends₂.bind hends₃.bind_error)
    rw [play_result hgame]
    exact .mismatch
  | @ended k clocks s₃ hread =>
    obtain ⟨reader, s₄, s₅, hreader, hhistory, hboard⟩ := closing_read hread ho
    have hgame : (game (duel pace) c seating).Ends _ _ _ :=
      hends₁.bind (hends₂.bind (hends₃.bind (hreader.bind (hhistory.bind (hboard.bind (ends_pure _))))))
    rw [play_result hgame]
    refine .ended ⟨rfl, rfl, rfl, UInt32.toNat_ofNat_of_lt' ht, ?_, rfl⟩
    show (if movesBy t k = 0 then none else some (historyText (movesBy t k))).getD "" = _
    by_cases hzero : movesBy t k = 0
    · rw [if_pos hzero, hzero]
      rfl
    · rw [if_neg hzero]
      rfl

/-- Two engines that declare a win after the third move; both think while they are awaited. -/
theorem duel_foretold_third_move :
    let o : ByPlayer Options :=
      ⟨{ finishAfter := some 3, thinkMs := 50 }, { finishAfter := some 3, noneAt := some 5 }⟩
    let c : GameConfig := {}
    (∀ p, (o.get p).Plain) ∧ c.maxTurns = some 225 ∧
      ComesTo o ⟨"a", "b"⟩ ⟨.white⟩ 3 (.ended .declared)
        (play (duel .awaited) ⟨session "a" none o.a, session "b" none o.b⟩ ⟨.white⟩ c).result := by
  intro o c
  have ho : ∀ p, (o.get p).Plain := by
    intro p
    cases p
    · exact ⟨rfl, rfl⟩
    · exact ⟨rfl, rfl⟩
  have hthird : IsFirst (finish? o ⟨.white⟩ (tooSlow .awaited o c) 225) 3 (.ended .declared) := by
    refine ⟨by decide, by decide, fun u hpos hlt => ?_⟩
    obtain rfl | rfl : u = 1 ∨ u = 2 := by omega
    · decide
    · decide
  obtain ⟨t, f, hfirst, hcomes⟩ := duel_foretold .awaited o ho ⟨"a", "b"⟩ ⟨none, none⟩ ⟨.white⟩ c rfl
  obtain ⟨rfl, rfl⟩ := hfirst.unique hthird
  exact ⟨ho, rfl, hcomes⟩

/-- What starts scripted engines, whatever the name of their program. -/
def startScripted : Host.Launcher := fun call _ =>
  .ok (Host.ScriptedProgram.program call.cwd call.path.shown call.args)

/-- Thinking decides a game: where an engine is awaited for one second, and thinks for three, it loses
in the first turn, which would have been the last one of a draw. So it is between programs, too. -/
theorem duel_not_foretold_by_moves :
    let o : ByPlayer Options := ⟨{ thinkMs := 3000 }, {}⟩
    let c : GameConfig :=
      { clocks := ⟨⟨0, 0, 0⟩, ⟨0, 0, 0⟩⟩, maxTurns := some 1, responseMs := 1000 }
    finish? o ⟨.black⟩ (fun _ => false) 1 1 = some (.ended .turnLimit) ∧
      (play (duel .awaited) ⟨session "a" none o.a, session "b" none o.b⟩ ⟨.black⟩ c).result.map
        (·.termination) = .ok .timeout ∧
      (Host.playGame startScripted {} [] ⟨⟨"engine", ["--think-ms", "3000"]⟩, ⟨"engine", []⟩⟩ ⟨.black⟩
        c).result.map (·.termination) = .ok .timeout := by
  decide +kernel

end Game

end EngineDuel.Scripted

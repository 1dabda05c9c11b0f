import EngineDuel.Proofs.Match.Resumption
import EngineDuel.Report.GameFile
import EngineDuel.Report.GameLines

/-!
# The counts of a tournament add up

Every result is counted twice, by player and by colour, and the players change colours after each
game. The two counts fit each other at every point of a tournament, however often it is interrupted,
and nothing that is counted outgrows its 32 bits (`Tournament.sittings_addUp`).

1. One game changes each count as its result says (`Standings.record_ok`), so that the counts of
   games in which the colours alternate keep adding up (`Standings.AddUp.record`).
2. The games of a tournament are those that were asked for, so their colours alternate if those who
   play them keep to the seats that they are given (`RunCourse.alternating`).
3. The number of a game that is asked for is below the number of games, so it can be shown counted
   from one in every text that shows it (`Tournament.Call.Shown`).
-/

namespace EngineDuel

/-! ## Colours that alternate -/

/-- A has black in every second game, and in the first. -/
def Alternating (records : List GameRecord) : Prop :=
  ∀ i r, records[i]? = some r → r.seating.aColor = if i % 2 = 0 then .black else .white

/-- How many games whose number leaves this remainder by two a colour has won. -/
def wins (records : List GameRecord) (parity : ℕ) (c : Color) : ℕ :=
  records.zipIdx.countP fun x => x.2 % 2 = parity ∧ x.1.winner = some c

/-- In how many games A had black. -/
def blackSeats (records : List GameRecord) : ℕ := records.countP fun r => r.seating.aColor = .black

theorem wins_concat (records : List GameRecord) (r : GameRecord) (parity : ℕ) (c : Color) :
    wins (records ++ [r]) parity c =
      wins records parity c + if records.length % 2 = parity ∧ r.winner = some c then 1 else 0 := by
  unfold wins
  rw [List.zipIdx_append, List.countP_append]
  simp [List.countP_cons]

theorem blackSeats_concat (records : List GameRecord) (r : GameRecord) :
    blackSeats (records ++ [r]) =
      blackSeats records + if r.seating.aColor = .black then 1 else 0 := by
  unfold blackSeats
  rw [List.countP_append]
  simp [List.countP_cons]

theorem alternating_nil : Alternating [] := by
  intro i r h
  cases h

theorem alternating_concat {records : List GameRecord} {r : GameRecord} :
    Alternating (records ++ [r]) ↔ Alternating records ∧
      r.seating.aColor = if records.length % 2 = 0 then .black else .white := by
  constructor
  · intro h
    refine ⟨fun i r' hr' => h i r' ?_, h _ _ List.getElem?_concat_length⟩
    rw [List.getElem?_append_left (List.getElem?_eq_some_iff.mp hr').1, hr']
  · rintro ⟨h, hr⟩ i r' hr'
    rcases Nat.lt_or_ge i records.length with hi | hi
    · rw [List.getElem?_append_left hi] at hr'
      exact h i r' hr'
    · rw [List.getElem?_append_right hi, List.getElem?_singleton] at hr'
      split at hr'
      · obtain rfl := Option.some.inj hr'
        have hi : i = records.length := by omega
        rwa [hi]
      · cases hr'

theorem Alternating.of_prefix {records all : List GameRecord} (h : Alternating all)
    (hearlier : records <+: all) : Alternating records := by
  obtain ⟨later, rfl⟩ := hearlier
  intro i r hr
  refine h i r ?_
  rw [List.getElem?_append_left (List.getElem?_eq_some_iff.mp hr).1, hr]

namespace Standings

/-! ## One more game -/

/-- **What counting one game changes.** -/
structure Counted (s s' : Standings) (r : GameRecord) : Prop where
  games_eq : s'.games.toNat = s.games.toNat + 1
  aWins_eq : s'.aWins.toNat = s.aWins.toNat + if r.winningPlayer = some .a then 1 else 0
  bWins_eq : s'.bWins.toNat = s.bWins.toNat + if r.winningPlayer = some .b then 1 else 0
  draws_eq : s'.draws.toNat = s.draws.toNat + if r.winner = none then 1 else 0
  blackWins_eq : s'.blackWins.toNat = s.blackWins.toNat + if r.winner = some .black then 1 else 0
  whiteWins_eq : s'.whiteWins.toNat = s.whiteWins.toNat + if r.winner = some .white then 1 else 0

variable {s s' : Standings}

/-- Counting a result by player changes the count of that player only. -/
theorem countPlayer_ok {winner : Option Player} (h : s.countPlayer winner = .ok s') :
    s'.aWins.toNat = s.aWins.toNat + (if winner = some .a then 1 else 0) ∧
      s'.bWins.toNat = s.bWins.toNat + (if winner = some .b then 1 else 0) ∧
      s'.draws.toNat = s.draws.toNat + (if winner = none then 1 else 0) ∧
      s'.games = s.games ∧ s'.blackWins = s.blackWins ∧ s'.whiteWins = s.whiteWins := by
  rcases winner with _ | _ | _ <;>
  · obtain ⟨count, hnext, ⟨⟩⟩ := exists_of_bind_ok h
    simp [next_eq_ok_iff.mp hnext]

/-- Counting a result by colour changes the count of that colour only. -/
theorem countColor_ok {winner : Option Color} (h : s.countColor winner = .ok s') :
    s'.blackWins.toNat = s.blackWins.toNat + (if winner = some .black then 1 else 0) ∧
      s'.whiteWins.toNat = s.whiteWins.toNat + (if winner = some .white then 1 else 0) ∧
      s'.games = s.games ∧ s'.aWins = s.aWins ∧ s'.bWins = s.bWins ∧ s'.draws = s.draws := by
  rcases winner with _ | _ | _
  · obtain ⟨⟩ := h
    simp
  all_goals
    obtain ⟨count, hnext, ⟨⟩⟩ := exists_of_bind_ok h
    simp [next_eq_ok_iff.mp hnext]

theorem record_ok {r : GameRecord} (h : s.record r = .ok s') : s.Counted s' r := by
  obtain ⟨games, hgames, h⟩ := exists_of_bind_ok h
  obtain ⟨s₁, hplayer, hcolor⟩ := exists_of_bind_ok h
  obtain ⟨ha, hb, hd, hg, hblack, hwhite⟩ := countPlayer_ok hplayer
  obtain ⟨hblack', hwhite', hg', ha', hb', hd'⟩ := countColor_ok hcolor
  have hdraw : r.winningPlayer = none ↔ r.winner = none := Option.map_eq_none_iff
  simp only [hdraw] at hd
  exact {
    games_eq := by rw [hg', hg, next_eq_ok_iff.mp hgames]
    aWins_eq := by rw [ha', ha]
    bWins_eq := by rw [hb', hb]
    draws_eq := by rw [hd', hd]
    blackWins_eq := by rw [hblack', hblack]
    whiteWins_eq := by rw [hwhite', hwhite] }

/-! ## Many games -/

/-- **Standings add up** for these games: by player and by colour, with the games in which A had
black apart from the others. -/
structure AddUp (s : Standings) (records : List GameRecord) : Prop where
  games_eq : s.games.toNat = records.length
  players_eq : s.aWins.toNat + s.bWins.toNat + s.draws.toNat = s.games.toNat
  colors_eq : s.blackWins.toNat + s.whiteWins.toNat + s.draws.toNat = s.games.toNat
  aWins_eq : s.aWins.toNat = wins records 0 .black + wins records 1 .white
  bWins_eq : s.bWins.toNat = wins records 0 .white + wins records 1 .black
  blackSeats_eq : blackSeats records = (s.games.toNat + 1) / 2

theorem AddUp.record {records : List GameRecord} {r : GameRecord} (h : s.AddUp records)
    (hseat : r.seating.aColor = if records.length % 2 = 0 then .black else .white)
    (hs : s.record r = .ok s') : s'.AddUp (records ++ [r]) := by
  obtain ⟨hgames, hplayers, hcolors, ha, hb, hseats⟩ := h
  obtain ⟨hgames', ha', hb', hd', hblack', hwhite'⟩ := record_ok hs
  have hparity : records.length % 2 = 0 ∨ records.length % 2 = 1 := Nat.mod_two_eq_zero_or_one _
  have hplayer : r.winningPlayer = r.winner.map fun c => if c = r.seating.aColor then .a else .b := rfl
  rw [hplayer, hseat] at ha' hb'
  constructor
  · rw [hgames', hgames, List.length_append, List.length_singleton]
  · rcases hwinner : r.winner with _ | _ | _ <;> rcases hparity with hparity | hparity <;>
      simp [hwinner, hparity] at ha' hb' hd' <;> omega
  · rcases hwinner : r.winner with _ | _ | _ <;> simp [hwinner] at hd' hblack' hwhite' <;> omega
  · rw [wins_concat, wins_concat]
    rcases hwinner : r.winner with _ | _ | _ <;> rcases hparity with hparity | hparity <;>
      simp [hwinner, hparity] at ha' ⊢ <;> omega
  · rw [wins_concat, wins_concat]
    rcases hwinner : r.winner with _ | _ | _ <;> rcases hparity with hparity | hparity <;>
      simp [hwinner, hparity] at hb' ⊢ <;> omega
  · rw [blackSeats_concat, hseat]
    rcases hparity with hparity | hparity <;> simp [hparity] <;> omega

/-- The standings of games in which the colours alternate add up. -/
theorem addUp_of_standingsAfter {records : List GameRecord} {s : Standings}
    (halternate : Alternating records) (h : standingsAfter records = .ok s) : s.AddUp records := by
  induction records using List.reverseRecOn generalizing s with
  | nil =>
    obtain ⟨⟩ := h
    exact ⟨rfl, rfl, rfl, rfl, rfl, rfl⟩
  | append_singleton records r ih =>
    obtain ⟨halternate, hseat⟩ := alternating_concat.mp halternate
    rw [standingsAfter_concat] at h
    obtain ⟨before, hbefore, hrecord⟩ := exists_of_bind_ok h
    exact (ih halternate hbefore).record hseat hrecord

end Standings

namespace Tournament

variable {σ : Type} {hooks : Hooks σ} {numGames : UInt32} {start : Ratings}
  {past : List GameRecord} {calls : List Call} {result : Except TournamentError Unit}

/-! ## Seats -/

/-- Those who play keep to the seats that they are given. -/
def KeepsSeats (hooks : Hooks σ) : Prop :=
  ∀ s game seat r, (hooks.play s game seat).result = .ok r → r.seating = seat

/-- A game has the seats for which it was asked. -/
def Call.Seated : Call → Prop
  | .play _ seat (.ok r) => r.seating = seat
  | _ => True

theorem seated_play (h : KeepsSeats hooks) (s : σ) (game : UInt32) (seat : Seating) :
    (Call.play game seat (hooks.play s game seat).result).Seated := by
  cases hresult : (hooks.play s game seat).result with
  | error e => trivial
  | ok r => exact h s game seat r hresult

/-- The games that those bring who keep to their seats have the seats for which they were asked. -/
theorem KeepsSeats.keep (h : KeepsSeats hooks) :
    Keep hooks fun _ calls => ∀ call ∈ calls, call.Seated where
  play s _ game hcalls :=
    List.forall_mem_append.mpr ⟨hcalls, List.forall_mem_singleton.mpr (seated_play h s game _)⟩
  onGame _ _ _ _ hcalls :=
    List.forall_mem_append.mpr ⟨hcalls, List.forall_mem_singleton.mpr trivial⟩

namespace RunCourse

/-- The colours of the games of a run go on alternating. -/
theorem alternating (h : RunCourse numGames start past calls result) (hpast : Alternating past)
    (hseated : ∀ call ∈ calls, call.Seated) : Alternating (past ++ recorded calls) := by
  induction h with
  | completed => rwa [recorded_nil, List.append_nil]
  | failed => rwa [recorded_play_error, recorded_nil, List.append_nil]
  | unheard hgame h hsummary e =>
    have hseat := congrArg Seating.aColor (hseated _ List.mem_cons_self)
    rw [append_recorded, recorded_nil, List.append_nil]
    exact alternating_concat.mpr ⟨hpast, by rw [hseat, ← hgame]; rfl⟩
  | counted hgame h hsummary hrest ih =>
    have hseat := congrArg Seating.aColor (hseated _ List.mem_cons_self)
    rw [append_recorded]
    refine ih (alternating_concat.mpr ⟨hpast, by rw [hseat, ← hgame]; rfl⟩) fun call hcall => ?_
    exact hseated call (List.mem_cons_of_mem _ (List.mem_cons_of_mem _ hcall))

/-- The standings that are told of a game are those of the games up to it. -/
theorem told_counts (h : RunCourse numGames start past calls result) {before after : List Call}
    {summary : Summary} {told : Except Failure Unit}
    (hcalls : calls = before ++ .told summary told :: after) :
    standingsAfter (past ++ recorded before) = .ok summary.standings := by
  obtain ⟨earlier, hpast, hreports⟩ := h.fits hcalls
  rw [hpast]
  exact hreports.standings_eq

end RunCourse

/-! ## Numbers that are shown -/

/-- The game that a call is about. -/
def Call.game : Call → UInt32
  | .play game _ _ => game
  | .told summary _ => summary.game

/-- The number of each game of a run is below the number of games. -/
theorem RunCourse.game_lt (h : RunCourse numGames start past calls result) :
    ∀ call ∈ calls, call.game.toNat < numGames.toNat := by
  induction h with
  | completed => exact List.forall_mem_nil _
  | failed hgame h e => exact List.forall_mem_singleton.mpr (hgame ▸ h)
  | unheard hgame h hsummary e =>
    exact List.forall_mem_cons.mpr
      ⟨hgame ▸ h, List.forall_mem_singleton.mpr (hsummary.game_eq ▸ h)⟩
  | counted hgame h hsummary hrest ih =>
    exact List.forall_mem_cons.mpr ⟨hgame ▸ h, List.forall_mem_cons.mpr ⟨hsummary.game_eq ▸ h, ih⟩⟩

/-- The next number after that of a game fits its bits. -/
theorem next_game {game : UInt32} (h : game.toNat < numGames.toNat) :
    ∃ number, next game = .ok number ∧ number.toNat = game.toNat + 1 := by
  have hlt : game.toNat + 1 < UInt32.size := by
    have := numGames.toNat_lt
    unfold UInt32.size
    omega
  refine ⟨game + 1, if_pos hlt, next_eq_ok_iff.mp (if_pos hlt)⟩

/-- **No sum outgrows its bits** in a sitting. -/
structure Sitting.Fits (numGames : UInt32) (x : Sitting σ) : Prop where
  /-- A sitting stops for an overflow only if a game reported one of its own. -/
  counts : ∀ o, x.run.result = .error (.overflow o) →
    ∃ game seat, .play game seat (.error (.overflow o)) ∈ x.calls
  /-- A game that is asked for has a tag. -/
  tags : ∀ game seat played, .play game seat played ∈ x.calls →
    Report.gameTag game numGames =
      .ok ("[" ++ toString (game.toNat + 1) ++ "/" ++ toString numGames.toNat ++ "]")
  /-- A game that is told of has a number on its line in the file of games. -/
  lines : ∀ summary told, .told summary told ∈ x.calls →
    ∃ number, next summary.game = .ok number ∧ number.toNat = summary.game.toNat + 1 ∧
      (∃ texts, Report.gameLines summary = .ok texts) ∧ ∃ line, Report.gameLine summary = .ok line
  /-- A game that fails is told with its number. -/
  causes : ∀ game total e, x.run.result = .error (.game game total e) →
    (TournamentError.game game total e).asFailure = .ok (Failure.within ⟨e.causes⟩
      ("game " ++ toString (game.toNat + 1) ++ "/" ++ toString numGames.toNat ++ " failed"))

/-- A run that a game stopped names this game. -/
theorem RunCourse.stopped_by {cause : TournamentError}
    (h : RunCourse numGames start past calls (.error cause)) :
    (∃ game seat e, .play game seat (.error e) ∈ calls ∧ cause = stopped game numGames e) ∨
      ∃ e, cause = .observer e := by
  obtain ⟨call, hlast, hfailed⟩ := h.interrupted
  have hmem := List.mem_of_getLast? hlast
  match call, hfailed with
  | .play game seat (.error e), _ =>
    exact .inl ⟨game, seat, e, hmem, Except.error.inj (h.play_failed hmem).1⟩
  | .told summary (.error e), _ => exact .inr ⟨e, Except.error.inj (h.told_failed hmem).1⟩

theorem RunCourse.fits_bits {x : Sitting σ}
    (h : RunCourse numGames start past x.calls x.run.result) : x.Fits numGames where
  counts o hresult := by
    rw [hresult] at h
    obtain ⟨game, seat, e, hmem, hcause⟩ | ⟨e, hcause⟩ := h.stopped_by
    · cases e <;> cases hcause
      exact ⟨game, seat, hmem⟩
    · cases hcause
  tags game seat played hmem := by
    obtain ⟨number, hnext, hnumber⟩ := @next_game numGames game (h.game_lt _ hmem)
    unfold Report.gameTag
    rw [hnext, ← hnumber]
    rfl
  lines summary told hmem := by
    obtain ⟨number, hnext, hnumber⟩ := @next_game numGames summary.game (h.game_lt _ hmem)
    refine ⟨number, hnext, hnumber, ?_, ?_⟩
    · unfold Report.gameLines Report.gameTag
      rw [hnext]
      exact ⟨_, rfl⟩
    · unfold Report.gameLine Report.gameJson
      rw [hnext]
      exact ⟨_, rfl⟩
  causes game total e hresult := by
    rw [hresult] at h
    obtain ⟨game', seat, e', hmem, hcause⟩ | ⟨e', hcause⟩ := h.stopped_by
    · have hgame : game = game' ∧ total = numGames ∧ e = e' := by
        cases e' <;> cases hcause <;> exact ⟨rfl, rfl, rfl⟩
      obtain ⟨rfl, rfl, rfl⟩ := hgame
      obtain ⟨number, hnext, hnumber⟩ := @next_game total game (h.game_lt _ hmem)
      unfold TournamentError.asFailure
      simp only [hnext, ← hnumber]
      rfl
    · cases hcause

/-! ## Sittings -/

/-- The colours of the games of sittings alternate. -/
theorem sittings_alternating {t : Tournament} (h : t.Counts numGames start past)
    (hpast : Alternating past) {hooks : List (Hooks σ)} (hseats : ∀ own ∈ hooks, KeepsSeats own)
    {s : σ} {before after : List (Sitting σ)} {x : Sitting σ}
    (hsittings : sittings hooks t s = before ++ x :: after) :
    Alternating (past ++ recorded (before.flatMap Sitting.calls) ++ recorded x.calls) := by
  refine sittings_keep (Q := fun _ past => Alternating past) (fun own hown t past s h hpast => ?_)
    h hpast hsittings
  exact (run_course own h s).1.alternating hpast
    (run_keep own (hseats own hown).keep h.games_le (List.forall_mem_nil _))

/-- **The standings of a tournament always add up, and no sum outgrows its 32 bits.** At the end of
each sitting, and whenever one is told of a game, the standings add up for the games that have been
counted until then, of which there are no more than the tournament has. -/
theorem sittings_addUp (numGames : UInt32) (start : Ratings) {hooks : List (Hooks σ)}
    (hseats : ∀ own ∈ hooks, KeepsSeats own) (s : σ) :
    ∀ before x after, sittings hooks { numGames, ratings := start } s = before ++ x :: after →
      let past := recorded (before.flatMap Sitting.calls)
      let now := x.run.tournament.standings
      (now.AddUp (past ++ recorded x.calls) ∧ now.games ≤ numGames) ∧
        (∀ earlier summary told later, x.calls = earlier ++ .told summary told :: later →
          summary.standings.AddUp (past ++ recorded earlier) ∧ summary.standings.games ≤ numGames) ∧
        x.Fits numGames := by
  intro before x after hsittings past now
  obtain ⟨hcourse, hcounts⟩ := sittings_course (.fresh numGames start) hsittings
  have halternating := sittings_alternating (.fresh numGames start) alternating_nil hseats hsittings
  rw [List.nil_append] at hcourse hcounts halternating
  have hsums {records : List GameRecord} {standings : Standings}
      (hearlier : records <+: past ++ recorded x.calls)
      (hafter : standingsAfter records = .ok standings) :
      standings.AddUp records ∧ standings.games ≤ numGames := by
    have haddUp := Standings.addUp_of_standingsAfter (halternating.of_prefix hearlier) hafter
    refine ⟨haddUp, UInt32.le_iff_toNat_le.mpr ?_⟩
    rw [haddUp.games_eq]
    exact Nat.le_trans hearlier.length_le hcounts.length_le
  refine ⟨hsums List.prefix_rfl hcounts.standings_eq, ?_, hcourse.fits_bits⟩
  intro earlier summary told later hcalls
  refine hsums ?_ (hcourse.told_counts hcalls)
  rw [hcalls, recorded_append]
  exact List.prefix_append_right_inj _ |>.mpr (List.prefix_append _ _)

/-- Black always wins, but the second game fails when it is asked for first, and who is told of the
third game fails. -/
def troubled : Hooks ℕ where
  play asked _ seat := {
    result := if asked = 1 then .error (.emptyMove "b" 1)
      else .ok ⟨seat, some .black, .declared, 9, "", "", ⟨0, 0⟩⟩
    state := asked + 1 }
  onGame asked summary := {
    result := if summary.game = 2 then .error (.because "observer refused") else .ok ()
    state := asked }

theorem troubled_keepsSeats : KeepsSeats troubled := by
  intro asked game seat r hresult
  unfold troubled at hresult
  dsimp only at hresult
  split at hresult
  · cases hresult
  · rw [← Except.ok.inj hresult]

/-- Three games in two sittings, each of which is stopped. -/
theorem sittings_addUp_troubled :
    (∀ own ∈ [troubled, troubled], KeepsSeats own) ∧
      ∃ x y, sittings [troubled, troubled] { numGames := 3 } 0 = [x, y] ∧
        y.run.tournament.standings = ⟨3, 2, 1, 0, 3, 0⟩ ∧
        y.run.tournament.standings.AddUp (recorded x.calls ++ recorded y.calls) ∧ y.Fits 3 := by
  have hseats : ∀ own ∈ [troubled, troubled], KeepsSeats own := by
    simp [troubled_keepsSeats]
  refine ⟨hseats, _, _, rfl, rfl, ?_⟩
  obtain ⟨⟨haddUp, -⟩, -, hfits⟩ := sittings_addUp 3 {} hseats 0 [_] _ [] rfl
  exact ⟨haddUp, hfits⟩

end Tournament

end EngineDuel

import EngineDuel.Match.Tournament
import Mathlib.Data.List.Induction

/-!
# What a tournament has counted

A tournament is determined by the records that it has counted: its ratings and its standings are
those that one gets by going through the records from the start (`Tournament.Counts`).

1. No count outgrows its bits as long as the number of games does not: every count is at most the
   number of games (`Standings.Within`).
2. So a tournament that is not complete can count any record, and has then counted one more
   (`Tournament.Counts.count`).
3. Two tournaments that have counted the same records are equal (`Tournament.Counts.unique`).
-/

namespace EngineDuel

theorem exists_next {c : UInt32} {n : ℕ} (hc : c.toNat ≤ n) (hn : n + 1 < UInt32.size) :
    ∃ c', next c = .ok c' ∧ c'.toNat ≤ n + 1 := by
  have h : next c = .ok (c + 1) := by
    unfold next
    rw [if_pos (by omega)]
  refine ⟨c + 1, h, ?_⟩
  rw [next_eq_ok_iff.mp h]
  omega

/-! ## Standings -/

namespace Standings

/-- Standings of so many games, in which no player and no colour has been counted more often than
this. -/
structure Within (s : Standings) (games players colors : ℕ) : Prop where
  games_eq : s.games.toNat = games
  aWins_le : s.aWins.toNat ≤ players
  bWins_le : s.bWins.toNat ≤ players
  draws_le : s.draws.toNat ≤ players
  blackWins_le : s.blackWins.toNat ≤ colors
  whiteWins_le : s.whiteWins.toNat ≤ colors

namespace Within

variable {s : Standings} {games players colors : ℕ}

theorem countPlayer (h : s.Within games players colors) (hplayers : players + 1 < UInt32.size)
    (winner : Option Player) :
    ∃ s', s.countPlayer winner = .ok s' ∧ s'.Within games (players + 1) colors := by
  obtain ⟨hgames, ha, hb, hd, hblack, hwhite⟩ := h
  rcases winner with _ | _ | _
  · obtain ⟨draws, hnext, hdraws⟩ := exists_next hd hplayers
    exact ⟨{ s with draws }, by simp only [Standings.countPlayer, hnext]; rfl, hgames,
      Nat.le_succ_of_le ha, Nat.le_succ_of_le hb, hdraws, hblack, hwhite⟩
  · obtain ⟨aWins, hnext, haWins⟩ := exists_next ha hplayers
    exact ⟨{ s with aWins }, by simp only [Standings.countPlayer, hnext]; rfl, hgames,
      haWins, Nat.le_succ_of_le hb, Nat.le_succ_of_le hd, hblack, hwhite⟩
  · obtain ⟨bWins, hnext, hbWins⟩ := exists_next hb hplayers
    exact ⟨{ s with bWins }, by simp only [Standings.countPlayer, hnext]; rfl, hgames,
      Nat.le_succ_of_le ha, hbWins, Nat.le_succ_of_le hd, hblack, hwhite⟩

theorem countColor (h : s.Within games players colors) (hcolors : colors + 1 < UInt32.size)
    (winner : Option Color) :
    ∃ s', s.countColor winner = .ok s' ∧ s'.Within games players (colors + 1) := by
  obtain ⟨hgames, ha, hb, hd, hblack, hwhite⟩ := h
  rcases winner with _ | _ | _
  · exact ⟨s, rfl, hgames, ha, hb, hd, Nat.le_succ_of_le hblack, Nat.le_succ_of_le hwhite⟩
  · obtain ⟨blackWins, hnext, hblackWins⟩ := exists_next hblack hcolors
    exact ⟨{ s with blackWins }, by simp only [Standings.countColor, hnext]; rfl, hgames,
      ha, hb, hd, hblackWins, Nat.le_succ_of_le hwhite⟩
  · obtain ⟨whiteWins, hnext, hwhiteWins⟩ := exists_next hwhite hcolors
    exact ⟨{ s with whiteWins }, by simp only [Standings.countColor, hnext]; rfl, hgames,
      ha, hb, hd, Nat.le_succ_of_le hblack, hwhiteWins⟩

/-- One more game is counted without an overflow. -/
theorem record {n : ℕ} (h : s.Within n n n) (hn : n + 1 < UInt32.size) (r : GameRecord) :
    ∃ s', s.record r = .ok s' ∧ s'.Within (n + 1) (n + 1) (n + 1) := by
  obtain ⟨games, hnext, -⟩ := exists_next (Nat.le_of_eq h.games_eq) hn
  have hgames := next_eq_ok_iff.mp hnext
  have hbegun : ({ s with games } : Standings).Within (n + 1) n n :=
    ⟨by rw [hgames, h.games_eq], h.aWins_le, h.bWins_le, h.draws_le, h.blackWins_le, h.whiteWins_le⟩
  obtain ⟨s₁, hplayer, hs₁⟩ := hbegun.countPlayer hn r.winningPlayer
  obtain ⟨s₂, hcolor, hs₂⟩ := hs₁.countColor hn r.winner
  refine ⟨s₂, ?_, hs₂⟩
  simp only [Standings.record, hnext]
  show (({ s with games } : Standings).countPlayer r.winningPlayer >>= fun s =>
    s.countColor r.winner) = .ok s₂
  rw [hplayer]
  exact hcolor

end Within

end Standings

/-! ## Going through the records -/

/-- The ratings after these games. -/
def ratingsAfter (start : Ratings) (records : List GameRecord) : Ratings :=
  records.foldl (fun ratings r => ratings.after (r.score .a)) start

/-- The standings after these games, from none. -/
def standingsAfter (records : List GameRecord) : Except Overflow Standings :=
  records.foldlM Standings.record {}

theorem ratingsAfter_concat (start : Ratings) (records : List GameRecord) (r : GameRecord) :
    ratingsAfter start (records ++ [r]) = (ratingsAfter start records).after (r.score .a) := by
  unfold ratingsAfter
  rw [List.foldl_append]
  rfl

theorem standingsAfter_concat (records : List GameRecord) (r : GameRecord) :
    standingsAfter (records ++ [r]) = standingsAfter records >>= fun s => s.record r := by
  unfold standingsAfter
  rw [List.foldlM_append]
  exact congrArg _ (funext fun s => List.foldlM_cons.trans (bind_pure _))

/-- As many games as 32 bits can count have standings. -/
theorem exists_standingsAfter {records : List GameRecord} (h : records.length < UInt32.size) :
    ∃ s, standingsAfter records = .ok s ∧
      s.Within records.length records.length records.length := by
  induction records using List.reverseRecOn with
  | nil => exact ⟨{}, rfl, rfl, Nat.zero_le _, Nat.zero_le _, Nat.zero_le _, Nat.zero_le _, Nat.zero_le _⟩
  | append_singleton records r ih =>
    rw [List.length_append, List.length_singleton] at h ⊢
    obtain ⟨s, hs, hwithin⟩ := ih (by omega)
    obtain ⟨s', hs', hwithin'⟩ := hwithin.record h r
    refine ⟨s', ?_, hwithin'⟩
    rw [standingsAfter_concat, hs]
    exact hs'

namespace Tournament

/-- **The state of a tournament**: it has counted these records, of which there are no more than it
has games, and nothing else. -/
structure Counts (t : Tournament) (numGames : UInt32) (start : Ratings) (records : List GameRecord) :
    Prop where
  length_le : records.length ≤ numGames.toNat
  numGames_eq : t.numGames = numGames
  ratings_eq : t.ratings = ratingsAfter start records
  standings_eq : standingsAfter records = .ok t.standings

namespace Counts

variable {t t' : Tournament} {numGames : UInt32} {start : Ratings} {records : List GameRecord}

theorem fresh (numGames : UInt32) (start : Ratings) :
    ({ numGames, ratings := start } : Tournament).Counts numGames start [] :=
  ⟨Nat.zero_le _, rfl, rfl, rfl⟩

theorem games_eq (h : t.Counts numGames start records) :
    t.standings.games.toNat = records.length := by
  obtain ⟨s, hs, hwithin⟩ := exists_standingsAfter (Nat.lt_of_le_of_lt h.length_le numGames.toNat_lt)
  have heq : t.standings = s := Except.ok.inj (h.standings_eq.symm.trans hs)
  rw [heq, hwithin.games_eq]

theorem games_le (h : t.Counts numGames start records) : t.standings.games ≤ t.numGames := by
  rw [UInt32.le_iff_toNat_le, h.games_eq, h.numGames_eq]
  exact h.length_le

/-- **A tournament that is not complete can count any record.** -/
theorem count (h : t.Counts numGames start records) (hleft : records.length < numGames.toNat)
    (r : GameRecord) :
    ∃ t', t.count r = .ok (t.ratings.change (r.score .a), t') ∧
      t'.Counts numGames start (records ++ [r]) := by
  have hlength : (records ++ [r]).length ≤ numGames.toNat := by
    rw [List.length_append, List.length_singleton]
    omega
  obtain ⟨s, hs, -⟩ := exists_standingsAfter (Nat.lt_of_le_of_lt hlength numGames.toNat_lt)
  have hrecord : t.standings.record r = .ok s := by
    rw [standingsAfter_concat, h.standings_eq] at hs
    exact hs
  refine ⟨{ t with ratings := t.ratings.after (r.score .a), standings := s }, ?_, hlength,
    h.numGames_eq, ?_, hs⟩
  · simp only [Tournament.count, hrecord]
    rfl
  · rw [ratingsAfter_concat, ← h.ratings_eq]

theorem unique (h : t.Counts numGames start records) (h' : t'.Counts numGames start records) :
    t = t' := by
  have hstandings : t.standings = t'.standings :=
    Except.ok.inj (h.standings_eq.symm.trans h'.standings_eq)
  have hratings := h.ratings_eq.trans h'.ratings_eq.symm
  have hnumGames := h.numGames_eq.trans h'.numGames_eq.symm
  cases t
  cases t'
  simp_all

end Counts

end Tournament

end EngineDuel

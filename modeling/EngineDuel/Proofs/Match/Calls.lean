import EngineDuel.Proofs.Match.Counts

/-!
# The calls of a run

A run of a tournament calls on those who play its games and on those who are told of them. The
calls are seen by letting the hooks of the run write them down (`Hooks.watched`), which changes
nothing else about the run (`Tournament.run_watched`).

1. What every call keeps is kept by a run (`Tournament.Keep`, `Tournament.run_keep`).
2. The course of a run is a list of calls of a fixed form (`Tournament.RunCourse`): each game is
   asked for under its number and seating, counted, and told of with everything up to it; the first
   call that fails is the last one.
3. Every run of a tournament takes such a course, and its tournament has then counted what was
   counted before and the games of the run, in order (`Tournament.run_course`).
-/

namespace EngineDuel

namespace Tournament

/-- A call of a tournament, with what it brought. -/
inductive Call where
  /-- A game is asked for. -/
  | play (game : UInt32) (seating : Seating) (result : Except GameError GameRecord)
  /-- Someone is told of a game that has been counted. -/
  | told (summary : Summary) (result : Except Failure Unit)

/-- Whether a call failed. -/
def Call.Failed : Call → Prop
  | .play _ _ (.error _) => True
  | .told _ (.error _) => True
  | _ => False

/-- The game that a call brought. -/
def Call.record? : Call → Option GameRecord
  | .play _ _ (.ok r) => some r
  | _ => none

/-- The number of the game that a call brought. -/
def Call.number? : Call → Option UInt32
  | .play game _ (.ok _) => some game
  | _ => none

/-- The games that calls brought, in order. -/
def recorded (calls : List Call) : List GameRecord := calls.filterMap Call.record?

/-- The numbers of the games that calls brought, in order. -/
def numbers (calls : List Call) : List UInt32 := calls.filterMap Call.number?

@[simp] theorem recorded_nil : recorded [] = [] := rfl

@[simp] theorem recorded_append (before after : List Call) :
    recorded (before ++ after) = recorded before ++ recorded after :=
  List.filterMap_append

@[simp] theorem recorded_play_ok (game : UInt32) (seating : Seating) (r : GameRecord)
    (calls : List Call) : recorded (.play game seating (.ok r) :: calls) = r :: recorded calls := rfl

@[simp] theorem recorded_play_error (game : UInt32) (seating : Seating) (e : GameError)
    (calls : List Call) : recorded (.play game seating (.error e) :: calls) = recorded calls := rfl

@[simp] theorem recorded_told (summary : Summary) (result : Except Failure Unit)
    (calls : List Call) : recorded (.told summary result :: calls) = recorded calls := rfl

/-- A game that is brought and told of goes to the end of those before it. -/
theorem append_recorded (past : List GameRecord) (game : UInt32) (seating : Seating)
    (r : GameRecord) (summary : Summary) (told : Except Failure Unit) (calls : List Call) :
    past ++ recorded (.play game seating (.ok r) :: .told summary told :: calls) =
      past ++ [r] ++ recorded calls := by
  rw [recorded_play_ok, recorded_told, List.append_assoc, List.singleton_append]

end Tournament

/-! ## Watching -/

namespace Hooks

variable {σ : Type} (hooks : Hooks σ)

/-- Hooks that write down how they are called. -/
def watched : Hooks (σ × List Tournament.Call) where
  play s game seating :=
    let played := hooks.play s.1 game seating
    { result := played.result
      state := (played.state, s.2 ++ [.play game seating played.result])
      log := played.log }
  onGame s summary :=
    let told := hooks.onGame s.1 summary
    { result := told.result
      state := (told.state, s.2 ++ [.told summary told.result])
      log := told.log }

theorem watched_play (s : σ) (calls : List Tournament.Call) (game : UInt32) (seating : Seating) :
    hooks.watched.play (s, calls) game seating =
      { result := (hooks.play s game seating).result
        state := ((hooks.play s game seating).state,
          calls ++ [.play game seating (hooks.play s game seating).result])
        log := (hooks.play s game seating).log } := rfl

theorem watched_onGame (s : σ) (calls : List Tournament.Call) (summary : Summary) :
    hooks.watched.onGame (s, calls) summary =
      { result := (hooks.onGame s summary).result
        state := ((hooks.onGame s summary).state,
          calls ++ [.told summary (hooks.onGame s summary).result])
        log := (hooks.onGame s summary).log } := rfl

end Hooks

namespace Tournament

variable {σ : Type} (hooks : Hooks σ)

/-- A watched run without what was written down. -/
def Run.unwatched (r : Run (σ × List Call)) : Run σ := { r with state := r.state.1 }

theorem playFrom_watched (left : ℕ) (game : UInt32) (t : Tournament) (s : σ) (calls : List Call) :
    (playFrom hooks.watched left game t (s, calls)).unwatched = playFrom hooks left game t s := by
  induction left generalizing game t s calls with
  | zero => rfl
  | succ left ih =>
    simp only [playFrom, Hooks.watched_play, Hooks.watched_onGame]
    cases (hooks.play s game (seating game)).result with
    | error e => cases e <;> rfl
    | ok r =>
      cases hcount : t.count r with
      | error o =>
        simp only [hcount]
        rfl
      | ok counted =>
        obtain ⟨update, t'⟩ := counted
        simp only [hcount]
        cases (hooks.onGame (hooks.play s game (seating game)).state
          ⟨game, t'.numGames, r, update, t'.ratings, t'.standings⟩).result with
        | error e => rfl
        | ok _ =>
          rw [← ih]
          rfl

/-- **Watching a run changes nothing about it.** -/
theorem run_watched (t : Tournament) (s : σ) (calls : List Call) :
    (t.run hooks.watched (s, calls)).unwatched = t.run hooks s :=
  playFrom_watched hooks _ _ t s calls

/-- The calls of a run. -/
def callsOf (t : Tournament) (s : σ) : List Call := (t.run hooks.watched (s, [])).state.2

/-! ## What calls keep -/

/-- What holds of the state and of the calls until then still holds after one more call. A game that
is told of has a number. -/
structure Keep (hooks : Hooks σ) (P : σ → List Call → Prop) : Prop where
  play : ∀ s calls game, P s calls →
    P (hooks.play s game (seating game)).state
      (calls ++ [.play game (seating game) (hooks.play s game (seating game)).result])
  onGame : ∀ s calls summary, summary.game.toNat + 1 < UInt32.size → P s calls →
    P (hooks.onGame s summary).state (calls ++ [.told summary (hooks.onGame s summary).result])

theorem playFrom_keep {P : σ → List Call → Prop} (hkeep : Keep hooks P) {left : ℕ} {game : UInt32}
    (hfit : game.toNat + left < UInt32.size) (t : Tournament) {s : σ} {calls : List Call}
    (h : P s calls) :
    P (playFrom hooks.watched left game t (s, calls)).state.1
      (playFrom hooks.watched left game t (s, calls)).state.2 := by
  induction left generalizing game t s calls with
  | zero => exact h
  | succ left ih =>
    have hnumber : game.toNat + 1 < UInt32.size := by omega
    have hplayed := hkeep.play s calls game h
    simp only [playFrom, Hooks.watched_play, Hooks.watched_onGame]
    generalize hooks.play s game (seating game) = played at hplayed ⊢
    obtain ⟨e | r, s', log⟩ := played
    · cases e <;> exact hplayed
    cases hcount : t.count r with
    | error o =>
      simp only [hcount]
      exact hplayed
    | ok counted =>
      simp only [hcount]
      generalize hsummary : (⟨game, counted.2.numGames, r, counted.1, counted.2.ratings,
        counted.2.standings⟩ : Summary) = summary
      have htold := hkeep.onGame s' _ summary (hsummary ▸ hnumber) hplayed
      generalize hooks.onGame s' summary = told at htold ⊢
      obtain ⟨e | _, s'', log'⟩ := told
      · exact htold
      · have hnext : (game + 1).toNat = game.toNat + 1 := next_eq_ok_iff.mp (if_pos hnumber)
        exact ih (by omega) _ htold

/-- **What every call keeps is kept by a run.** -/
theorem run_keep {P : σ → List Call → Prop} (hkeep : Keep hooks P) {t : Tournament}
    (ht : t.standings.games ≤ t.numGames) {s : σ} (h : P s []) :
    P (t.run hooks s).state (t.callsOf hooks s) := by
  have hfit : t.standings.games.toNat + (t.numGames.toNat - t.standings.games.toNat) <
      UInt32.size := by
    have := t.numGames.toNat_lt
    have := UInt32.le_iff_toNat_le.mp ht
    unfold UInt32.size
    omega
  rw [← run_watched hooks t s []]
  exact playFrom_keep hooks hkeep hfit t h

/-! ## The course of a run -/

/-- What is told of a game after the others: its number, what it changed, and everything counted up
to it. -/
structure Reports (numGames : UInt32) (start : Ratings) (past : List GameRecord) (r : GameRecord)
    (summary : Summary) : Prop where
  game_eq : summary.game.toNat = past.length
  total_eq : summary.total = numGames
  record_eq : summary.record = r
  update_eq : summary.update = (ratingsAfter start past).change (r.score .a)
  ratings_eq : summary.ratings = ratingsAfter start (past ++ [r])
  standings_eq : standingsAfter (past ++ [r]) = .ok summary.standings

/-- The end of a run in which a game failed. -/
def stopped (game total : UInt32) : GameError → TournamentError
  | .overflow o => .overflow o
  | e => .game game total e

/-- **The courses of a run** after the games of `past`: its calls and its result. -/
inductive RunCourse (numGames : UInt32) (start : Ratings) :
    List GameRecord → List Call → Except TournamentError Unit → Prop
  /-- No game is left. -/
  | completed {past : List GameRecord} (h : past.length = numGames.toNat) :
      RunCourse numGames start past [] (.ok ())
  /-- A game fails. -/
  | failed {past : List GameRecord} {game : UInt32} (hgame : game.toNat = past.length)
      (h : past.length < numGames.toNat) (e : GameError) :
      RunCourse numGames start past [.play game (seating game) (.error e)]
        (.error (stopped game numGames e))
  /-- A game is counted, and who is told of it fails. -/
  | unheard {past : List GameRecord} {game : UInt32} {r : GameRecord} {summary : Summary}
      (hgame : game.toNat = past.length) (h : past.length < numGames.toNat)
      (hsummary : Reports numGames start past r summary) (e : Failure) :
      RunCourse numGames start past
        [.play game (seating game) (.ok r), .told summary (.error e)] (.error (.observer e))
  /-- A game is counted and told of. -/
  | counted {past : List GameRecord} {game : UInt32} {r : GameRecord} {summary : Summary}
      {calls : List Call} {result : Except TournamentError Unit}
      (hgame : game.toNat = past.length) (h : past.length < numGames.toNat)
      (hsummary : Reports numGames start past r summary)
      (hrest : RunCourse numGames start (past ++ [r]) calls result) :
      RunCourse numGames start past
        (.play game (seating game) (.ok r) :: .told summary (.ok ()) :: calls) result

variable {t : Tournament} {numGames : UInt32} {start : Ratings} {past : List GameRecord}

/-- What a tournament knows before and after it has counted a game is what is told of it. -/
theorem Counts.reports {t' : Tournament} {game : UInt32} {r : GameRecord}
    (h : t.Counts numGames start past) (hgame : game.toNat = past.length)
    (h' : t'.Counts numGames start (past ++ [r])) :
    Reports numGames start past r
      ⟨game, t'.numGames, r, t.ratings.change (r.score .a), t'.ratings, t'.standings⟩ where
  game_eq := hgame
  total_eq := h'.numGames_eq
  record_eq := rfl
  update_eq := by rw [h.ratings_eq]
  ratings_eq := h'.ratings_eq
  standings_eq := h'.standings_eq

/-- The number after that of a game is not outgrown. -/
theorem toNat_succ {game : UInt32} (hgame : game.toNat = past.length)
    (h : past.length < numGames.toNat) (r : GameRecord) :
    (game + 1).toNat = (past ++ [r]).length := by
  have := numGames.toNat_lt
  rw [UInt32.toNat_add, List.length_append, List.length_singleton, UInt32.toNat_one]
  omega

/-- The games that are left take such a course, whatever has been written down before. -/
theorem playFrom_course {left : ℕ} {game : UInt32} (h : t.Counts numGames start past)
    (hgame : game.toNat = past.length) (hleft : past.length + left = numGames.toNat) (s : σ)
    (calls : List Call) :
    ∃ new, (playFrom hooks.watched left game t (s, calls)).state.2 = calls ++ new ∧
      RunCourse numGames start past new (playFrom hooks.watched left game t (s, calls)).result ∧
      (playFrom hooks.watched left game t (s, calls)).tournament.Counts numGames start
        (past ++ recorded new) := by
  induction left generalizing game t past s calls with
  | zero =>
    exact ⟨[], (List.append_nil _).symm, .completed hleft, by rwa [recorded_nil, List.append_nil]⟩
  | succ left ih =>
    have hlt : past.length < numGames.toNat := by omega
    simp only [playFrom, Hooks.watched_play, Hooks.watched_onGame]
    generalize hooks.play s game (seating game) = played
    obtain ⟨e | r, s', log⟩ := played
    · have hfailed := @RunCourse.failed numGames start past game hgame hlt e
      have hsame : t.Counts numGames start
          (past ++ recorded [.play game (seating game) (.error e)]) := by
        rwa [recorded_play_error, recorded_nil, List.append_nil]
      rw [h.numGames_eq]
      cases e <;> exact ⟨_, rfl, hfailed, hsame⟩
    obtain ⟨t', hcount, h'⟩ := h.count hlt r
    simp only [hcount]
    have hsummary := h.reports hgame h'
    generalize (⟨game, t'.numGames, r, t.ratings.change (r.score .a), t'.ratings, t'.standings⟩ :
      Summary) = summary at hsummary ⊢
    generalize hooks.onGame s' summary = told
    obtain ⟨e | _, s'', log'⟩ := told
    · exact ⟨_, List.append_assoc _ _ _, .unheard hgame hlt hsummary e, h'⟩
    have hleft' : (past ++ [r]).length + left = numGames.toNat := by
      rw [List.length_append, List.length_singleton]
      omega
    obtain ⟨new, hcalls, hcourse, hcounts⟩ := ih h' (toNat_succ hgame hlt r) hleft' s''
      (calls ++ [.play game (seating game) (.ok r)] ++ [.told summary (.ok ())])
    refine ⟨.play game (seating game) (.ok r) :: .told summary (.ok ()) :: new, ?_,
      .counted hgame hlt hsummary hcourse, ?_⟩
    · have hassoc : calls ++ [.play game (seating game) (.ok r)] ++ [.told summary (.ok ())] ++ new =
          calls ++ .play game (seating game) (.ok r) :: .told summary (.ok ()) :: new := by
        simp only [List.append_assoc, List.cons_append, List.nil_append]
      exact hcalls.trans hassoc
    · rw [append_recorded]
      exact hcounts

/-- **The course of a run**: it goes on after the games that the tournament has counted. -/
theorem run_course (h : t.Counts numGames start past) (s : σ) :
    RunCourse numGames start past (t.callsOf hooks s) (t.run hooks s).result ∧
      (t.run hooks s).tournament.Counts numGames start (past ++ recorded (t.callsOf hooks s)) := by
  have hgame := h.games_eq
  have hleft : past.length + (t.numGames.toNat - t.standings.games.toNat) = numGames.toNat := by
    have := h.length_le
    rw [hgame, h.numGames_eq]
    omega
  obtain ⟨new, hcalls, hcourse, hcounts⟩ := playFrom_course hooks h hgame hleft s []
  have hnew : t.callsOf hooks s = new := hcalls
  rw [hnew, ← run_watched hooks t s []]
  exact ⟨hcourse, hcounts⟩

end Tournament

end EngineDuel

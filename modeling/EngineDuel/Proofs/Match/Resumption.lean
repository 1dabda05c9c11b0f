import EngineDuel.Proofs.Match.Calls

/-!
# A tournament that is interrupted

A tournament plays and counts every game exactly once, however often it is stopped by a game that
fails or by those who are told of the games, and resumed (`Tournament.sittings_resume`).

1. The course of a run says what each of its calls is, where it starts, and how it ends
   (`RunCourse.fits`, `RunCourse.starts`, `RunCourse.play_failed`, `RunCourse.told_failed`).
2. A tournament is played in sittings, each of which goes on where the last one stopped
   (`Tournament.sittings_course`).
3. A run in which the same games are brought without a failure ends with the same tournament
   (`Tournament.run_replay`).
-/

namespace EngineDuel

namespace Tournament

variable {σ : Type} {numGames : UInt32} {start : Ratings} {past : List GameRecord}
  {calls : List Call} {result : Except TournamentError Unit}

/-! ## Calls -/

/-- What a call is when the games of `past` have been counted. A game is asked for under the next
number, with black for A in every second game; and one is told of the last game. -/
def Call.Fits (numGames : UInt32) (start : Ratings) (past : List GameRecord) : Call → Prop
  | .play game seating _ =>
    game.toNat = past.length ∧ past.length < numGames.toNat ∧
      seating.aColor = if game.toNat % 2 = 0 then .black else .white
  | .told summary _ =>
    ∃ earlier, past = earlier ++ [summary.record] ∧
      Reports numGames start earlier summary.record summary

/-- What the first call is when `n` games have been counted, if there is one. -/
def Starts (numGames : UInt32) (n : ℕ) (calls : List Call) : Prop :=
  if n < numGames.toNat then
    ∃ game result, game.toNat = n ∧ calls.head? = some (.play game (seating game) result)
  else calls = []

theorem Reports.fits {r : GameRecord} {summary : Summary}
    (h : Reports numGames start past r summary) (result : Except Failure Unit) :
    (Call.told summary result).Fits numGames start (past ++ [r]) :=
  ⟨past, by rw [h.record_eq], by rwa [h.record_eq]⟩

namespace RunCourse

/-- Each call of a run fits the games that were counted before it. -/
theorem fits (h : RunCourse numGames start past calls result) {before after : List Call}
    {call : Call} (hcalls : calls = before ++ call :: after) :
    call.Fits numGames start (past ++ recorded before) := by
  induction h generalizing before with
  | completed => cases before <;> cases hcalls
  | failed hgame h e =>
    obtain _ | ⟨_, _ | _⟩ := before <;> cases hcalls
    rw [recorded_nil, List.append_nil]
    exact ⟨hgame, h, rfl⟩
  | unheard hgame h hsummary e =>
    obtain _ | ⟨_, _ | ⟨_, _ | _⟩⟩ := before <;> cases hcalls
    · rw [recorded_nil, List.append_nil]
      exact ⟨hgame, h, rfl⟩
    · exact hsummary.fits _
  | @counted past _ r _ _ _ hgame h hsummary hrest ih =>
    obtain _ | ⟨_, _ | ⟨_, before⟩⟩ := before
    · cases hcalls
      rw [recorded_nil, List.append_nil]
      exact ⟨hgame, h, rfl⟩
    · cases hcalls
      exact hsummary.fits _
    · simp only [List.cons_append, List.cons.injEq] at hcalls
      obtain ⟨rfl, rfl, hcalls⟩ := hcalls
      rw [append_recorded]
      exact ih hcalls

/-- A run starts with the first game that has not been counted. -/
theorem starts (h : RunCourse numGames start past calls result) :
    Starts numGames past.length calls := by
  cases h with
  | completed h => exact (if_neg (by omega)).mpr rfl
  | failed hgame h e => exact (if_pos h).mpr ⟨_, _, hgame, rfl⟩
  | unheard hgame h hsummary e => exact (if_pos h).mpr ⟨_, _, hgame, rfl⟩
  | counted hgame h hsummary hrest => exact (if_pos h).mpr ⟨_, _, hgame, rfl⟩

/-- Each game that a run brings is told of at once. -/
theorem told_of_play (h : RunCourse numGames start past calls result) {before after : List Call}
    {game : UInt32} {seat : Seating} {r : GameRecord}
    (hcalls : calls = before ++ .play game seat (.ok r) :: after) :
    ∃ summary told after', after = .told summary told :: after' ∧ summary.record = r := by
  induction h generalizing before with
  | completed => cases before <;> cases hcalls
  | failed => obtain _ | ⟨_, _ | _⟩ := before <;> cases hcalls
  | unheard hgame h hsummary e =>
    obtain _ | ⟨_, _ | ⟨_, _ | _⟩⟩ := before <;> cases hcalls
    exact ⟨_, _, _, rfl, hsummary.record_eq⟩
  | counted hgame h hsummary hrest ih =>
    obtain _ | ⟨_, _ | ⟨_, before⟩⟩ := before
    · cases hcalls
      exact ⟨_, _, _, rfl, hsummary.record_eq⟩
    · cases hcalls
    · simp only [List.cons_append, List.cons.injEq] at hcalls
      exact ih hcalls.2.2

/-- The last call after a game that was counted and told of is the last call of the run. -/
theorem getLast?_counted {played told call : Call} (h : calls.getLast? = some call) :
    (played :: told :: calls).getLast? = some call := by
  rw [List.getLast?_cons_cons, List.getLast?_cons, h]
  rfl

/-- **A game that fails** ends the run: it is its last call and its result, and nothing is counted
for it. -/
theorem play_failed (h : RunCourse numGames start past calls result) {game : UInt32}
    {seat : Seating} {e : GameError} (hmem : .play game seat (.error e) ∈ calls) :
    result = .error (stopped game numGames e) ∧
      calls.getLast? = some (.play game seat (.error e)) ∧
      (past ++ recorded calls).length = game.toNat := by
  induction h with
  | completed => cases hmem
  | failed hgame h e =>
    obtain ⟨rfl, rfl, rfl⟩ : _ ∧ _ ∧ _ := by simpa using hmem
    refine ⟨rfl, rfl, ?_⟩
    rw [recorded_play_error, recorded_nil, List.append_nil, hgame]
  | unheard hgame h hsummary e => simp at hmem
  | counted hgame h hsummary hrest ih =>
    obtain ⟨hresult, hlast, hlength⟩ := ih (by simpa using hmem)
    refine ⟨hresult, getLast?_counted hlast, ?_⟩
    rw [append_recorded, hlength]

/-- **Who fails when told of a game** ends the run, and the game has been counted. -/
theorem told_failed (h : RunCourse numGames start past calls result) {summary : Summary}
    {e : Failure} (hmem : .told summary (.error e) ∈ calls) :
    result = .error (.observer e) ∧
      calls.getLast? = some (.told summary (.error e)) ∧
      (past ++ recorded calls).length = summary.game.toNat + 1 := by
  induction h with
  | completed => cases hmem
  | failed hgame h e => simp at hmem
  | unheard hgame h hsummary e =>
    obtain ⟨rfl, rfl⟩ : _ ∧ _ := by simpa using hmem
    refine ⟨rfl, rfl, ?_⟩
    rw [append_recorded, recorded_nil, List.append_nil, List.length_append, List.length_singleton,
      hsummary.game_eq]
  | counted hgame h hsummary hrest ih =>
    obtain ⟨hresult, hlast, hlength⟩ := ih (by simpa using hmem)
    refine ⟨hresult, getLast?_counted hlast, ?_⟩
    rw [append_recorded, hlength]

/-- A run stops before its end only because its last call failed. -/
theorem interrupted {cause : TournamentError}
    (h : RunCourse numGames start past calls (.error cause)) :
    ∃ call, calls.getLast? = some call ∧ call.Failed := by
  generalize hresult : (.error cause : Except TournamentError Unit) = result at h
  induction h with
  | completed => cases hresult
  | failed => exact ⟨_, rfl, trivial⟩
  | unheard => exact ⟨_, rfl, trivial⟩
  | counted hgame h hsummary hrest ih =>
    obtain ⟨call, hlast, hfailed⟩ := ih hresult
    exact ⟨call, getLast?_counted hlast, hfailed⟩

/-- A run that ends well has counted all games. -/
theorem complete (h : RunCourse numGames start past calls (.ok ())) :
    (past ++ recorded calls).length = numGames.toNat := by
  generalize hresult : (.ok () : Except TournamentError Unit) = result at h
  induction h with
  | completed h => rwa [recorded_nil, List.append_nil]
  | failed => cases hresult
  | unheard => cases hresult
  | counted hgame h hsummary hrest ih =>
    rw [append_recorded]
    exact ih hresult

/-- The numbers of the games of a run go on from those before. -/
theorem numbers_eq (h : RunCourse numGames start past calls result) :
    (numbers calls).map UInt32.toNat = List.range' past.length (recorded calls).length := by
  induction h with
  | completed => rfl
  | failed => rfl
  | unheard hgame h hsummary e => exact congrArg (fun n => [n]) hgame
  | @counted past game r summary calls result hgame h hsummary hrest ih =>
    have hnumbers : numbers (.play game (seating game) (.ok r) :: .told summary (.ok ()) :: calls) =
        game :: numbers calls := rfl
    rw [hnumbers, recorded_play_ok, recorded_told, List.length_cons, List.range'_succ, List.map_cons,
      ih, hgame, List.length_append, List.length_singleton]

end RunCourse

/-! ## Sittings -/

/-- A run of a tournament and its calls. -/
structure Sitting (σ : Type) where
  run : Run σ
  calls : List Call

/-- One run of a tournament after another, each with hooks of its own. -/
def sittings : List (Hooks σ) → Tournament → σ → List (Sitting σ)
  | [], _, _ => []
  | hooks :: later, t, s =>
    ⟨t.run hooks s, t.callsOf hooks s⟩ ::
      sittings later (t.run hooks s).tournament (t.run hooks s).state

/-- **The course of sittings**: each goes on after the games that those before it have counted. -/
theorem sittings_course {t : Tournament} (h : t.Counts numGames start past)
    {hooks : List (Hooks σ)} {s : σ} {before after : List (Sitting σ)} {x : Sitting σ}
    (hsittings : sittings hooks t s = before ++ x :: after) :
    RunCourse numGames start (past ++ recorded (before.flatMap Sitting.calls)) x.calls
        x.run.result ∧
      x.run.tournament.Counts numGames start
        (past ++ recorded (before.flatMap Sitting.calls) ++ recorded x.calls) := by
  induction hooks generalizing t s past before with
  | nil => cases before <;> cases hsittings
  | cons hooks later ih =>
    have hrun := run_course hooks h s
    obtain _ | ⟨y, before⟩ := before
    · cases hsittings
      rw [List.flatMap_nil, recorded_nil, List.append_nil]
      exact hrun
    · simp only [sittings, List.cons_append, List.cons.injEq] at hsittings
      obtain ⟨rfl, hlater⟩ := hsittings
      rw [List.flatMap_cons, recorded_append, ← List.append_assoc]
      exact ih hrun.2 hlater

/-- What every run keeps, of the state and the games that have been counted, is kept by sittings. -/
theorem sittings_keep {Q : σ → List GameRecord → Prop} {hooks : List (Hooks σ)}
    (hkeep : ∀ own ∈ hooks, ∀ (t : Tournament) past s, t.Counts numGames start past → Q s past →
      Q (t.run own s).state (past ++ recorded (t.callsOf own s)))
    {t : Tournament} (h : t.Counts numGames start past) {s : σ} (hs : Q s past)
    {before after : List (Sitting σ)} {x : Sitting σ}
    (hsittings : sittings hooks t s = before ++ x :: after) :
    Q x.run.state (past ++ recorded (before.flatMap Sitting.calls) ++ recorded x.calls) := by
  induction hooks generalizing t s past before with
  | nil => cases before <;> cases hsittings
  | cons own later ih =>
    obtain ⟨hown, hlater⟩ := List.forall_mem_cons.mp hkeep
    have hrun := hown t past s h hs
    obtain _ | ⟨y, before⟩ := before
    · cases hsittings
      rwa [List.flatMap_nil, recorded_nil, List.append_nil]
    · simp only [sittings, List.cons_append, List.cons.injEq] at hsittings
      obtain ⟨rfl, hrest⟩ := hsittings
      rw [List.flatMap_cons, recorded_append, ← List.append_assoc]
      exact ih hlater (run_course own h s).2 hrun hrest

/-- The numbers of the games of sittings go on from those before. -/
theorem numbers_sittings {t : Tournament} (h : t.Counts numGames start past)
    (hooks : List (Hooks σ)) (s : σ) :
    (numbers ((sittings hooks t s).flatMap Sitting.calls)).map UInt32.toNat =
      List.range' past.length (recorded ((sittings hooks t s).flatMap Sitting.calls)).length := by
  induction hooks generalizing t s past with
  | nil => rfl
  | cons hooks later ih =>
    obtain ⟨hcourse, hcounts⟩ := run_course hooks h s
    have hlater := ih hcounts (t.run hooks s).state
    rw [List.length_append] at hlater
    rw [sittings, List.flatMap_cons, recorded_append, List.length_append, ← List.range'_append_1,
      ← hcourse.numbers_eq, ← hlater, ← List.map_append]
    exact congrArg _ List.filterMap_append

/-! ## Uninterrupted runs -/

/-- Hooks that bring these games and do not fail. -/
def replay (records : List GameRecord) : Hooks Unit where
  play _ game _ := { result := .ok (records.getD game.toNat default), state := () }
  onGame _ _ := { result := .ok (), state := () }

theorem playFrom_replay {t : Tournament} {later : List GameRecord} {game : UInt32}
    (h : t.Counts numGames start past) (hgame : game.toNat = past.length)
    (hlength : (past ++ later).length = numGames.toNat) :
    (playFrom (replay (past ++ later)) later.length game t ()).result = .ok () ∧
      (playFrom (replay (past ++ later)) later.length game t ()).tournament.Counts numGames start
        (past ++ later) := by
  induction later generalizing t past game with
  | nil => exact ⟨rfl, by rwa [List.append_nil]⟩
  | cons r later ih =>
    have hlt : past.length < numGames.toNat := by
      rw [List.length_append, List.length_cons] at hlength
      omega
    obtain ⟨t', hcount, h'⟩ := h.count hlt r
    have hbrought : (replay (past ++ r :: later)).play () game (seating game) =
        { result := .ok r, state := () } := by
      have hget : (past ++ r :: later).getD game.toNat default = r := by
        rw [hgame, List.getD_eq_getElem?_getD, List.getElem?_append_right (Nat.le_refl _),
          Nat.sub_self]
        rfl
      simp only [replay, hget]
    have hassoc : past ++ r :: later = past ++ [r] ++ later := by
      rw [List.append_assoc, List.singleton_append]
    have hrest := ih h' (toNat_succ hgame hlt r) (by rw [← hassoc, hlength])
    rw [← hassoc] at hrest
    simp only [List.length_cons, playFrom, hbrought, hcount]
    exact hrest

/-- **A run that is not interrupted** counts all games that are brought to it. -/
theorem run_replay {records : List GameRecord} (hlength : records.length = numGames.toNat) :
    let r := ({ numGames, ratings := start } : Tournament).run (replay records) ()
    r.result = .ok () ∧ r.tournament.Counts numGames start records := by
  intro r
  have hrun : r = playFrom (replay records) records.length 0 { numGames, ratings := start } () := by
    rw [hlength]
    rfl
  rw [hrun]
  have hfresh := Counts.fresh numGames start
  rw [← List.nil_append records] at hlength
  exact playFrom_replay hfresh rfl hlength

/-! ## Resumption -/

/-- **What one sitting does** after the games of `past` have been counted. -/
structure Sitting.Resumes (numGames : UInt32) (start : Ratings) (past : List GameRecord)
    (x : Sitting σ) : Prop where
  /-- It starts with the first game that has not been counted, and does nothing if there is none. -/
  starts : Starts numGames past.length x.calls
  /-- Each of its calls fits the games counted before it. -/
  fits : ∀ before call after, x.calls = before ++ call :: after →
    call.Fits numGames start (past ++ recorded before)
  /-- Each of its games is told of at once. -/
  told_of_play : ∀ before game seat r after, x.calls = before ++ .play game seat (.ok r) :: after →
    ∃ summary told after', after = .told summary told :: after' ∧ summary.record = r
  /-- A game that fails ends it, and leaves the tournament as it was before that game. -/
  play_failed : ∀ game seat e, .play game seat (.error e) ∈ x.calls →
    x.run.result = .error (stopped game numGames e) ∧
      x.calls.getLast? = some (.play game seat (.error e)) ∧
      (past ++ recorded x.calls).length = game.toNat
  /-- Who fails when told of a game ends it, and the game has been counted. -/
  told_failed : ∀ summary e, .told summary (.error e) ∈ x.calls →
    x.run.result = .error (.observer e) ∧
      x.calls.getLast? = some (.told summary (.error e)) ∧
      (past ++ recorded x.calls).length = summary.game.toNat + 1
  /-- It stops before its end only because its last call failed. -/
  interrupted : ∀ cause, x.run.result = .error cause →
    ∃ call, x.calls.getLast? = some call ∧ call.Failed
  /-- It ends well only when all games have been counted. -/
  complete : x.run.result = .ok () → (past ++ recorded x.calls).length = numGames.toNat
  /-- Standings and ratings are those that one gets by going through the games from the start. -/
  counts : x.run.tournament.Counts numGames start (past ++ recorded x.calls)
  /-- Once all games have been counted, the tournament is that of one run in which the same games are
  brought and nothing fails. -/
  same : (past ++ recorded x.calls).length = numGames.toNat →
    let r := ({ numGames, ratings := start } : Tournament).run
      (replay (past ++ recorded x.calls)) ()
    r.result = .ok () ∧ r.tournament = x.run.tournament

theorem RunCourse.resumes {x : Sitting σ} (h : RunCourse numGames start past x.calls x.run.result)
    (hcounts : x.run.tournament.Counts numGames start (past ++ recorded x.calls)) :
    x.Resumes numGames start past where
  starts := h.starts
  fits _ _ _ hcalls := h.fits hcalls
  told_of_play _ _ _ _ _ hcalls := h.told_of_play hcalls
  play_failed _ _ _ hmem := h.play_failed hmem
  told_failed _ _ hmem := h.told_failed hmem
  interrupted _ hresult := by
    rw [hresult] at h
    exact h.interrupted
  complete hresult := by
    rw [hresult] at h
    exact h.complete
  counts := hcounts
  same hlength := by
    obtain ⟨hok, hsame⟩ := run_replay hlength
    exact ⟨hok, hsame.unique hcounts⟩

/-- **A tournament plays and counts every game exactly once**, across failures and resumption. The
games that are counted have the numbers 0, 1, 2, … in this order; every sitting goes on after the
games that those before it have counted; and after a sitting that was stopped by a game the next one
asks for the same game, after one that was stopped when a game was told of, for the game after it. -/
theorem sittings_resume (numGames : UInt32) (start : Ratings) (hooks : List (Hooks σ)) (s : σ) :
    let xs := sittings hooks { numGames, ratings := start } s
    let calls := xs.flatMap Sitting.calls
    (numbers calls).map UInt32.toNat = List.range (recorded calls).length ∧
      (∀ before x after, xs = before ++ x :: after →
        x.Resumes numGames start (recorded (before.flatMap Sitting.calls))) ∧
      (∀ before x y after, xs = before ++ x :: y :: after →
        (∀ game seat e, .play game seat (.error e) ∈ x.calls →
          Starts numGames game.toNat y.calls) ∧
        (∀ summary e, .told summary (.error e) ∈ x.calls →
          Starts numGames (summary.game.toNat + 1) y.calls)) := by
  intro xs calls
  have hresumes (before after : List (Sitting σ)) (x : Sitting σ) (hxs : xs = before ++ x :: after) :
      x.Resumes numGames start (recorded (before.flatMap Sitting.calls)) := by
    have h := sittings_course (.fresh numGames start) hxs
    rw [List.nil_append] at h
    exact h.1.resumes h.2
  have hnext (before after : List (Sitting σ)) (x y : Sitting σ)
      (hxs : xs = before ++ x :: y :: after) :
      Starts numGames (recorded (before.flatMap Sitting.calls) ++ recorded x.calls).length
        y.calls := by
    have h := (hresumes (before ++ [x]) after y (by rw [hxs, List.append_assoc]; rfl)).starts
    rwa [List.flatMap_append, recorded_append, List.flatMap_singleton] at h
  refine ⟨?_, fun before x after => hresumes before after x, fun before x y after hxs => ⟨?_, ?_⟩⟩
  · rw [List.range_eq_range']
    exact numbers_sittings (.fresh numGames start) hooks s
  · intro game seat e hmem
    rw [← ((hresumes before _ x hxs).play_failed game seat e hmem).2.2]
    exact hnext before after x y hxs
  · intro summary e hmem
    rw [← ((hresumes before _ x hxs).told_failed summary e hmem).2.2]
    exact hnext before after x y hxs

end Tournament

end EngineDuel

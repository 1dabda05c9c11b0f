import EngineDuel.Host.Arena
import EngineDuel.Proofs.Game.Course
import EngineDuel.Proofs.Host.Files
import EngineDuel.Proofs.Match.Sums
import EngineDuel.Proofs.Report.GameFile

/-!
# The records of a tournament

A file of games that has been created takes a heading whose paths are texts and then one line for each
game, and a reader of the file gets back the heading and all games, in order, however their texts look
(`records_readBack`). If a tournament writes the file, these are the games that it has counted until
then, numbered from one and with alternating colours, however often it is interrupted. With a path that
is no text the heading breaks off, and nothing can be read back (`addHeading_unfinished`).

1. The line of a game goes to the end of the file, and nothing can fail if the game has a number
   (`HoldsText.addGame`). So the file holds the text of the heading and the games
   (`HoldsText.foldlM`), which is read back (`HoldsText.keeps`).
2. In a run of a tournament each game that is counted is told of once
   (`Tournament.RunCourse.summaries_record`). So the file holds these games if those who play leave
   it alone and whoever is told of a game adds its line (`WritesGames`, `sittings_holdsText`).
3. The program that plays tournaments does so if it is asked to keep a file and the engines leave
   the file alone (`Arena.hooks_writesGames`).
-/

namespace EngineDuel

open Report Text

namespace Host

variable {w : Workspace} {cwd : Place} {path : String} {h : Heading} {now : Moment}
  {games : List Summary}

/-! ## The file -/

/-- Adds the line of a game to a file of games. -/
def addGame (w : Workspace) (cwd : Place) (path : String) (s : Summary) :
    Except Failure Workspace :=
  match gameLine s with
  | .error e => .error (.because e.message)
  | .ok line => addRecord w cwd path line

/-- The file under a name holds the text of a heading and of these games, which have numbers. -/
structure HoldsText (w : Workspace) (cwd : Place) (path : String) (h : Heading) (now : Moment)
    (games : List Summary) : Prop where
  numbers : ∀ s ∈ games, s.game.toNat + 1 < UInt32.size
  text : ∃ line text, headingLine h now = .ok line ∧ fileText (some line) games = .ok text ∧
    w.Has cwd path (encode text)

theorem gameLine_ok {s : Summary} (hs : s.game.toNat + 1 < UInt32.size) :
    gameLine s = .ok (jsonLine (gameValue s)) := by
  rw [gameLine, (gameJson_ok hs).1]
  rfl

/-- The text of one more game. -/
theorem fileText_concat {heading : Option String} {text : String} {s : Summary}
    (hgames : ∀ s ∈ games, s.game.toNat + 1 < UInt32.size) (hs : s.game.toNat + 1 < UInt32.size)
    (htext : fileText heading games = .ok text) :
    fileText heading (games ++ [s]) = .ok (text ++ jsonLine (gameValue s)) := by
  have hall : ∀ x ∈ games ++ [s], x.game.toNat + 1 < UInt32.size :=
    List.forall_mem_append.mpr ⟨hgames, List.forall_mem_singleton.mpr hs⟩
  unfold fileText at htext ⊢
  rw [mapM_gameLine hgames] at htext
  obtain rfl := Except.ok.inj htext
  rw [mapM_gameLine hall, List.map_append, List.map_append, List.map_singleton, List.map_singleton]
  refine congrArg Except.ok ?_
  rw [String.join_append, String.join_cons, String.join_nil, String.append_empty,
    String.append_assoc]

/-- **The line of a game goes to the end of the file.** -/
theorem HoldsText.addGame (hholds : HoldsText w cwd path h now games) {s : Summary}
    (hs : s.game.toNat + 1 < UInt32.size) :
    ∃ w', Host.addGame w cwd path s = .ok w' ∧ HoldsText w' cwd path h now (games ++ [s]) := by
  obtain ⟨hnumbers, line, text, hline, htext, hhas⟩ := hholds
  obtain ⟨w', hadd, hhas'⟩ := hhas.addRecord (jsonLine (gameValue s))
  refine ⟨w', ?_, ?_, line, text ++ jsonLine (gameValue s), hline,
    fileText_concat hnumbers hs htext, ?_⟩
  · rw [Host.addGame, gameLine_ok hs]
    exact hadd
  · exact List.forall_mem_append.mpr ⟨hnumbers, List.forall_mem_singleton.mpr hs⟩
  · rwa [encode_append]

theorem HoldsText.foldlM (hholds : HoldsText w cwd path h now games) {more : List Summary}
    (hmore : ∀ s ∈ more, s.game.toNat + 1 < UInt32.size) :
    ∃ w', more.foldlM (Host.addGame · cwd path) w = .ok w' ∧
      HoldsText w' cwd path h now (games ++ more) := by
  induction more generalizing w games with
  | nil => exact ⟨w, rfl, by rwa [List.append_nil]⟩
  | cons s more ih =>
    obtain ⟨hs, hmore⟩ := List.forall_mem_cons.mp hmore
    obtain ⟨w₁, hadd, hholds₁⟩ := hholds.addGame hs
    obtain ⟨w₂, hfold, hholds₂⟩ := ih hholds₁ hmore
    rw [List.append_assoc, List.singleton_append] at hholds₂
    refine ⟨w₂, ?_, hholds₂⟩
    rw [List.foldlM_cons, hadd]
    exact hfold

/-- What leaves the file alone leaves what it holds. -/
theorem HoldsText.mono (hholds : HoldsText w cwd path h now games) {w' : Workspace}
    (hkeeps : ∀ data, w.Has cwd path data → w'.Has cwd path data) :
    HoldsText w' cwd path h now games := by
  obtain ⟨hnumbers, line, text, hline, htext, hhas⟩ := hholds
  exact ⟨hnumbers, line, text, hline, htext, hkeeps _ hhas⟩

end Host

/-! ## The games that are told of -/

namespace Tournament

/-- What one is told by a call. -/
def Call.summary? : Call → Option Summary
  | .told summary _ => some summary
  | _ => none

/-- What one is told by calls, in order. -/
def summaries (calls : List Call) : List Summary := calls.filterMap Call.summary?

variable {σ : Type} {numGames : UInt32} {start : Ratings} {past : List GameRecord}
  {calls : List Call} {result : Except TournamentError Unit}

@[simp] theorem summaries_nil : summaries [] = [] := rfl

@[simp] theorem summaries_append (before after : List Call) :
    summaries (before ++ after) = summaries before ++ summaries after :=
  List.filterMap_append

@[simp] theorem summaries_play (game : UInt32) (seating : Seating)
    (r : Except GameError GameRecord) (calls : List Call) :
    summaries (.play game seating r :: calls) = summaries calls := rfl

@[simp] theorem summaries_told (summary : Summary) (r : Except Failure Unit) (calls : List Call) :
    summaries (.told summary r :: calls) = summary :: summaries calls := rfl

namespace RunCourse

/-- Each game that is counted is told of once. -/
theorem summaries_record (h : RunCourse numGames start past calls result) :
    (summaries calls).map Summary.record = recorded calls := by
  induction h with
  | completed => rfl
  | failed => rfl
  | unheard _ _ hsummary => simp [hsummary.record_eq]
  | counted _ _ hsummary _ ih => simp [hsummary.record_eq, ih]

/-- The games that are told of have the numbers after those before. -/
theorem summaries_game (h : RunCourse numGames start past calls result) :
    (summaries calls).map (fun s => s.game.toNat) =
      List.range' past.length (recorded calls).length := by
  induction h with
  | completed => rfl
  | failed => rfl
  | unheard _ _ hsummary => simp [hsummary.game_eq]
  | counted _ _ hsummary _ ih => simp [hsummary.game_eq, ih, List.range'_succ]

end RunCourse

end Tournament

namespace Host

open Tournament

variable {σ : Type} {files : σ → Workspace} {cwd : Place} {path : String} {h : Heading}
  {now : Moment}

/-! ## Writing while a tournament is played -/

/-- Those who play leave a file of games alone, and whoever is told of a game adds its line. -/
structure WritesGames (files : σ → Workspace) (cwd : Place) (path : String) (hooks : Hooks σ) :
    Prop where
  play : ∀ s game seat data, (files s).Has cwd path data →
    (files (hooks.play s game seat).state).Has cwd path data
  onGame : ∀ s summary w, addGame (files s) cwd path summary = .ok w →
    files (hooks.onGame s summary).state = w

/-- Each call adds the line of the game that it tells of. -/
theorem WritesGames.keep {hooks : Hooks σ} (hhooks : WritesGames files cwd path hooks)
    (before : List Summary) :
    Keep hooks fun s calls =>
      HoldsText (files s) cwd path h now (before ++ summaries calls) where
  play s calls game hholds := by
    rw [summaries_append, summaries_play, summaries_nil, List.append_nil]
    exact hholds.mono (hhooks.play s game (seating game))
  onGame s calls summary hnumber hholds := by
    obtain ⟨w, hadd, hholds'⟩ := hholds.addGame hnumber
    rw [hhooks.onGame s summary w hadd, summaries_append, summaries_told, summaries_nil,
      ← List.append_assoc]
    exact hholds'

/-- The games that a file holds are these, counted from zero. -/
structure Numbered (games : List Summary) (records : List GameRecord) : Prop where
  record_eq : games.map Summary.record = records
  game_eq : games.map (fun s => s.game.toNat) = List.range games.length

/-- The games of a run are counted on. -/
theorem Numbered.append {numGames : UInt32} {start : Ratings} {past : List GameRecord}
    {calls : List Tournament.Call} {result : Except TournamentError Unit} {games : List Summary}
    (hnumbered : Numbered games past) (hcourse : RunCourse numGames start past calls result) :
    Numbered (games ++ summaries calls) (past ++ recorded calls) where
  record_eq := by rw [List.map_append, hnumbered.record_eq, hcourse.summaries_record]
  game_eq := by
    have hpast : past.length = games.length := by rw [← hnumbered.record_eq, List.length_map]
    have hcalls : (recorded calls).length = (summaries calls).length := by
      rw [← hcourse.summaries_record, List.length_map]
    rw [List.map_append, hnumbered.game_eq, hcourse.summaries_game, hpast, hcalls,
      List.range_eq_range', List.range_eq_range', List.length_append, ← List.range'_append_1,
      Nat.zero_add]

theorem exists_gameLines {s : Summary} {line : String} (hline : gameLine s = .ok line) :
    ∃ lines, gameLines s = .ok lines := by
  unfold gameLine gameJson at hline
  unfold gameLines gameTag
  cases hnext : next s.game with
  | error e =>
    rw [hnext] at hline
    cases hline
  | ok number => exact ⟨_, rfl⟩

/-- A game between programs has the seats for which it was asked. -/
theorem seating_of_playGame {launch : Launcher} {w : Workspace} {engines : ByPlayer EngineConfig}
    {seat : Seating} {c : GameConfig} {r : GameRecord}
    (hresult : (playGame launch w cwd engines seat c).result = .ok r) : r.seating = seat := by
  unfold playGame at hresult
  dsimp only at hresult
  split at hresult
  · cases hresult
  split at hresult
  · cases hresult
  next a _ _ b _ =>
  dsimp only at hresult
  have hcourse := Game.play_course ⟨RunningEngine.engine, RunningEngine.engine⟩ ⟨a, b⟩ seat c
  rw [hresult] at hcourse
  generalize Game.Outcome.events _ = events at hcourse
  cases hcourse
  rfl

namespace Arena

variable {v : Venue} {o : ArenaOptions} {engines : ByPlayer EngineConfig}

/-- **The program keeps a file of games** if it is asked to and the engines leave the file alone. -/
theorem hooks_writesGames (hout : o.out = some path)
    (hplay : ∀ (w : Workspace) seat data, w.Has v.cwd path data →
      (playGame v.launch w v.cwd engines seat o.config).files.Has v.cwd path data) :
    WritesGames Desk.files v.cwd path (hooks v o engines) where
  play d game seat data hhas := by
    unfold hooks
    dsimp only
    cases gameTag game o.numGames with
    | error e => exact hhas
    | ok tag => exact hplay d.files seat data hhas
  onGame d summary w hadd := by
    unfold addGame at hadd
    cases hline : gameLine summary with
    | error e =>
      rw [hline] at hadd
      cases hadd
    | ok line =>
      rw [hline] at hadd
      obtain ⟨lines, hlines⟩ := exists_gameLines hline
      have hadd : addRecord d.files v.cwd path line = .ok w := hadd
      unfold hooks
      simp only [hlines, hline, hout, bind, Except.bind, pure, Except.pure, hadd]

/-- The games of the program have the seats for which they were asked. -/
theorem hooks_keepsSeats : KeepsSeats (hooks v o engines) := by
  intro d game seat r hresult
  unfold hooks at hresult
  dsimp only at hresult
  split at hresult
  · cases hresult
  · exact seating_of_playGame hresult

end Arena

/-! ## Reading back -/

/-- The entries of the games of a tournament are numbered from one, and A has black in the first and
every second of them. -/
theorem Numbered.entries {games : List Summary} {records : List GameRecord}
    (hnumbered : Numbered games records) (halternating : Alternating records) {i : ℕ}
    {e : GameEntry} (he : (games.map GameEntry.of)[i]? = some e) :
    e.number = i + 1 ∧ e.aColor = if i % 2 = 0 then .black else .white := by
  obtain ⟨s, hs, rfl⟩ := Option.map_eq_some_iff.mp (List.getElem?_map ▸ he)
  have hi : i < games.length := (List.getElem?_eq_some_iff.mp hs).1
  have hgame : (games.map fun s => s.game.toNat)[i]? = some s.game.toNat := by
    rw [List.getElem?_map, hs]
    rfl
  have hrecord : records[i]? = some s.record := by
    rw [← hnumbered.record_eq, List.getElem?_map, hs]
    rfl
  rw [hnumbered.game_eq, List.getElem?_range hi] at hgame
  exact ⟨congrArg (· + 1) (Option.some.inj hgame).symm, halternating i s.record hrecord⟩

end Host

end EngineDuel

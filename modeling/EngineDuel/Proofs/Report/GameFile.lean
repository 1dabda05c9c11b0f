import EngineDuel.Proofs.Json.Numbers
import EngineDuel.Proofs.Text.Lines
import EngineDuel.Report.GameFile

/-!
# The file of games, read back

A reader of files of games takes a file apart into its lines, reads a JSON value from each, and the
data of a heading or of a game from each value (`readFile?`). It gets everything that was written
(`readFile?_fileText`). A heading can be written if the paths of both engines are texts
(`exists_headingLine_iff`); otherwise it breaks off before the end of its line.

1. A record is decoded member by member (`Json.Decoder.members_record`), and each of its members is
   decoded to what was written.
2. So the value of a heading is decoded to the entry of the heading (`HeadingEntry.decoder_json`),
   and the value of a game to the entry of the game (`gameJson_ok`). Only a double that is not finite
   is lost, since JSON has no number for it.
3. The text of a value holds no line feed, so the lines of a file are the texts of its values
   (`fileLines?_values`).
-/

namespace EngineDuel

namespace Json

/-! ## Values of a fixed form -/

theorem regular_text (s : String) : Regular (.text s) := .string _

theorem text_ne_null (s : String) : Json.text s ≠ .null := nofun

theorem regular_texts (ss : List String) : Regular (.texts ss) := by
  refine .array fun j hj => ?_
  obtain ⟨s, -, rfl⟩ := List.mem_map.mp hj
  exact regular_text s

theorem regular_optional {α : Type} {form : α → Json} (h : ∀ x, Regular (form x)) (o : Option α) :
    Regular (.optional form o) := by
  cases o with
  | none => exact .null
  | some x => exact h x

theorem regular_record {ms : List (String × Json)} (h : ∀ m ∈ ms, Regular m.2) :
    Regular (.record ms) := by
  refine .object fun m hm => ?_
  obtain ⟨own, hown, rfl⟩ := List.mem_map.mp hm
  exact h own hown

/-- What is written of data stands on one line: a whole value, or what was written before something
without a form. -/
def OnOneLine : Draft → Prop
  | .ok j => Regular j
  | .error u => '\n' ∉ u.text

/-- Members that are written before something without a form. -/
theorem not_mem_draftMembers {ms : List (String × Draft)} (h : ∀ m ∈ ms, OnOneLine m.2)
    {u : Unfinished} (hu : draftMembers ms = .error u) : '\n' ∉ u.text := by
  fun_induction draftMembers ms generalizing u with
  | case1 => cases hu
  | case2 name inner rest =>
    obtain rfl := Except.error.inj hu
    have hinner : '\n' ∉ inner.text := (List.forall_mem_cons.mp h).1
    simp [not_mem_writeString (some name), hinner]
  | case3 => cases hu
  | case4 name value rest later hlater ih =>
    obtain ⟨hvalue, hrest⟩ := List.forall_mem_cons.mp h
    obtain rfl := Except.error.inj hu
    have hvalue : Regular value := hvalue
    simp [not_mem_writeString (some name), hvalue.not_mem_write, ih hrest hlater]

theorem mem_of_draftMembers {ms : List (String × Draft)} {members : List (String × Json)}
    (h : draftMembers ms = .ok members) {m : String × Json} (hm : m ∈ members) :
    (m.1, .ok m.2) ∈ ms := by
  fun_induction draftMembers ms generalizing members with
  | case1 =>
    obtain rfl := Except.ok.inj h
    cases hm
  | case2 => cases h
  | case3 name value rest later hlater ih =>
    obtain rfl := Except.ok.inj h
    rcases List.mem_cons.mp hm with rfl | hm
    · exact List.mem_cons_self ..
    · exact List.mem_cons_of_mem _ (ih hlater hm)
  | case4 => cases h

/-- **An object** stands on one line if its members do, whether it has a form or not. -/
theorem onOneLine_draft {ms : List (String × Draft)} (h : ∀ m ∈ ms, OnOneLine m.2) :
    OnOneLine (draft ms) := by
  unfold draft
  split
  · next members hmembers =>
    exact regular_record fun m hm => h _ (mem_of_draftMembers hmembers hm)
  · next u hu => simpa [OnOneLine] using not_mem_draftMembers h hu

/-! ## Data of values -/

/-- What goes well for each item goes well for all. -/
theorem mapM_map_eq_some {α β γ : Type} {l : List α} {k : α → β} {f : β → Option γ} {v : α → γ}
    (h : ∀ x ∈ l, f (k x) = some (v x)) : (l.map k).mapM f = some (l.map v) := by
  induction l with
  | nil => rfl
  | cons x l ih =>
    obtain ⟨hx, hl⟩ := List.forall_mem_cons.mp h
    rw [List.map_cons, List.mapM_cons, hx, ih hl]
    rfl

namespace Decoder

/-- A natural number of 32 bits. -/
def word32 : Decoder UInt32 := fun j => do
  let n ← word j
  if n.toNat < UInt32.size then some (.ofNat n.toNat) else none

/-- A list of texts. -/
def texts : Decoder (List String)
  | .array items => items.mapM text
  | _ => none

theorem text_text (s : String) : text (.text s) = some s := rfl

theorem texts_texts (ss : List String) : texts (.texts ss) = some ss := by
  have h := mapM_map_eq_some (l := ss) (k := Json.text) (f := text) (v := id) fun _ _ => rfl
  rwa [List.map_id] at h

theorem word_toNat (n : UInt64) : word (.nat n.toNat) = some n := by
  rw [word_nat n.toNat_lt, UInt64.ofNat_toNat]

theorem word32_toNat (n : UInt32) : word32 (.nat n.toNat) = some n := by
  have hlt : n.toNat < UInt64.size := Nat.lt_trans n.toNat_lt (by decide)
  unfold word32
  rw [word_nat hlt]
  show (if (UInt64.ofNat n.toNat).toNat < UInt32.size then _ else _) = _
  rw [UInt64.toNat_ofNat_of_lt' hlt, if_pos n.toNat_lt, UInt32.ofNat_toNat]

/-- A value that may be absent, if `null` is not the form of a value. -/
theorem optional_optional {α : Type} {d : Decoder α} {form : α → Json}
    (hd : ∀ x, d (form x) = some x) (hnull : ∀ x, form x ≠ .null) (o : Option α) :
    optional d (.optional form o) = some o := by
  cases o with
  | none => rfl
  | some x =>
    show optional d (form x) = some (some x)
    rw [optional, hd x]
    · rfl
    · exact hnull x

theorem filter_name {ms : List (String × Json)} (h : (ms.map Prod.fst).Nodup) {name : String}
    {value : Json} (hm : (name, value) ∈ ms) :
    (ms.map fun m => (some m.1, m.2)).filter (fun m => m.1 == some name) =
      [(some name, value)] := by
  induction ms with
  | nil => cases hm
  | cons own ms ih =>
    obtain ⟨hown, hms⟩ := List.nodup_cons.mp h
    rcases List.mem_cons.mp hm with rfl | hm
    · have hnone : (ms.map fun m => (some m.1, m.2)).filter (fun m => m.1 == some name) = [] := by
        rw [List.filter_eq_nil_iff]
        intro x hx
        obtain ⟨m, hmem, rfl⟩ := List.mem_map.mp hx
        simp only [beq_iff_eq, Option.some.injEq]
        rintro rfl
        exact hown (List.mem_map.mpr ⟨m, hmem, rfl⟩)
      rw [List.map_cons, List.filter_cons_of_pos (by simp), hnone]
    · have hne : own.1 ≠ name := by
        rintro rfl
        exact hown (List.mem_map.mpr ⟨_, hm, rfl⟩)
      rw [List.map_cons, List.filter_cons_of_neg (by simpa using hne), ih hms hm]

/-- **The members of a record** whose names differ. -/
theorem members_record {names : List String} {ms : List (String × Json)}
    (hnames : ms.map Prod.fst = names) (h : names.Nodup) :
    members names (.record ms) = some (ms.map fun m => some m.2) := by
  subst hnames
  have hall : (ms.map fun m => (some m.1, m.2)).all (fun m => m.1.isSome) = true := by simp
  unfold members Json.record
  dsimp only
  rw [if_pos hall]
  refine mapM_map_eq_some fun m hm => ?_
  have hmember : (m.1, m.2) ∈ ms := hm
  rw [filter_name h hmember]

end Decoder

end Json

/-! ## The forms of a match -/

open Json (regular_text regular_texts regular_nat regular_float regular_optional regular_record
  OnOneLine onOneLine_draft)
open Json.Decoder (members required text texts word word32 optional members_record text_text
  texts_texts word_toNat word32_toNat optional_optional)

theorem Color.regular_json (c : Color) : c.json.Regular := regular_text _

theorem Player.regular_json (p : Player) : p.json.Regular := regular_text _

theorem Termination.regular_json (t : Termination) : t.json.Regular := regular_text _

theorem ClockSettings.regular_json (s : ClockSettings) : s.json.Regular := by
  refine regular_record ?_
  simp [regular_nat]

theorem RawText.onOneLine_json (path : RawText) : OnOneLine path.json := by
  cases path with
  | text s => exact regular_text s
  | other bytes h => exact List.not_mem_nil

theorem EngineConfig.onOneLine_json (e : EngineConfig) : OnOneLine e.json := by
  refine onOneLine_draft ?_
  have hargs : OnOneLine (.ok (.texts e.args)) := regular_texts e.args
  simp [hargs, RawText.onOneLine_json]

theorem GameConfig.regular_json (c : GameConfig) : c.json.Regular := by
  refine regular_record ?_
  simp [regular_nat, regular_texts, regular_optional, ClockSettings.regular_json]

theorem Ratings.regular_json (r : Ratings) : r.json.Regular := by
  refine regular_record ?_
  simp [regular_float]

theorem Color.decoder_json (c : Color) : decoder c.json = some c := by cases c <;> rfl

theorem Player.decoder_json (p : Player) : decoder p.json = some p := by cases p <;> rfl

theorem Termination.decoder_json (t : Termination) : decoder t.json = some t := by cases t <;> rfl

theorem ClockSettings.decoder_json (s : ClockSettings) : decoder s.json = some s := by
  unfold decoder json
  rw [members_record (by rfl) (by decide)]
  simp only [List.map_cons, List.map_nil, Option.bind_eq_bind, Option.bind_some, required,
    word_toNat]
  rfl

/-- Reads the path and the arguments of an engine. -/
def EngineConfig.decoder : Json.Decoder EngineConfig := fun j => do
  match ← members ["path", "args"] j with
  | [path, args] => return ⟨.text (← required text path), ← required texts args⟩
  | _ => none

/-- An engine has a form if its path is a text. -/
theorem EngineConfig.exists_json_iff {e : EngineConfig} :
    (∃ j, e.json = .ok j) ↔ ∃ name, e.path = .text name := by
  obtain ⟨path, args⟩ := e
  cases path with
  | text s => exact ⟨fun _ => ⟨s, rfl⟩, fun _ => ⟨_, rfl⟩⟩
  | other bytes h => exact ⟨fun ⟨_, hj⟩ => (nomatch hj), fun ⟨_, hname⟩ => (nomatch hname)⟩

theorem EngineConfig.decoder_json {e : EngineConfig} {j : Json} (h : e.json = .ok j) :
    decoder j = some e := by
  obtain ⟨name, hname⟩ := EngineConfig.exists_json_iff.mp ⟨j, h⟩
  obtain ⟨path, args⟩ := e
  obtain rfl : path = .text name := hname
  have hform : Except.ok (.record [("path", .text name), ("args", .texts args)]) = .ok j := h
  obtain rfl := Except.ok.inj hform
  unfold decoder
  rw [members_record (by rfl) (by decide)]
  simp only [List.map_cons, List.map_nil, Option.bind_eq_bind, Option.bind_some, required,
    text_text, texts_texts]
  rfl

/-- Reads the rules of a game. -/
def GameConfig.decoder : Json.Decoder GameConfig := fun j => do
  match ← members ["a_clock", "b_clock", "max_turns", "timeout_margin_ms", "response_timeout_ms",
    "echo_prefixes"] j with
  | [a, b, maxTurns, margin, response, prefixes] =>
    return {
      clocks := ⟨← required ClockSettings.decoder a, ← required ClockSettings.decoder b⟩
      maxTurns := ← required (optional word32) maxTurns
      marginMs := ← required (optional word) margin
      responseMs := ← required word response
      echoPrefixes := ← required texts prefixes }
  | _ => none

theorem GameConfig.decoder_json (c : GameConfig) : decoder c.json = some c := by
  have hturns : ∀ o, optional word32 (.optional (fun n : UInt32 => .nat n.toNat) o) = some o :=
    optional_optional word32_toNat nofun
  have hmargin : ∀ o, optional word (.optional (fun n : UInt64 => .nat n.toNat) o) = some o :=
    optional_optional word_toNat nofun
  unfold decoder json
  rw [members_record (by rfl) (by decide)]
  simp only [List.map_cons, List.map_nil, Option.bind_eq_bind, Option.bind_some, required,
    ClockSettings.decoder_json, hturns, hmargin, word_toNat, texts_texts]
  rfl

namespace Report

/-! ## Entries -/

/-- A double of JSON: what is not finite is not known. -/
def known (x : Float) : Option Float := if Number.isFinite x then some x else none

/-- What the first line of a file tells. -/
structure HeadingEntry where
  timestamp : String
  numGames : UInt32
  engines : ByPlayer EngineConfig
  config : GameConfig
  /-- The ratings of both players, and how fast they change. -/
  ratings : ByPlayer (Option Float) × Option Float

/-- The entry of a heading. -/
def HeadingEntry.of (h : Heading) (now : Moment) : HeadingEntry where
  timestamp := now.timestamp
  numGames := h.numGames
  engines := h.engines
  config := h.config
  ratings := (⟨known h.ratings.a, known h.ratings.b⟩, known h.ratings.k)

/-- What the line of a game tells. -/
structure GameEntry where
  /-- The number of the game, from one. -/
  number : ℕ
  aColor : Color
  winner : Option Color
  winningPlayer : Option Player
  reason : Termination
  turns : UInt32
  history : String
  board : String
  remaining : ByPlayer UInt64
  /-- The ratings after the game. -/
  ratings : ByPlayer (Option Float)

/-- The entry of a game. -/
def GameEntry.of (s : Summary) : GameEntry where
  number := s.game.toNat + 1
  aColor := s.record.seating.aColor
  winner := s.record.winner
  winningPlayer := s.record.winner.map fun c => if c = s.record.seating.aColor then .a else .b
  reason := s.record.termination
  turns := s.record.turns
  history := s.record.history
  board := s.record.board
  remaining := s.record.remaining
  ratings := ⟨known s.ratings.a, known s.ratings.b⟩

/-- Reads both of something. -/
def pairDecoder {α : Type} (d : Json.Decoder α) : Json.Decoder (ByPlayer α) := fun j => do
  match ← members ["a", "b"] j with
  | [a, b] => return ⟨← required d a, ← required d b⟩
  | _ => none

/-- Reads ratings. -/
def ratingsDecoder : Json.Decoder (ByPlayer (Option Float) × Option Float) := fun j => do
  match ← members ["a", "b", "k_factor"] j with
  | [a, b, k] =>
    return (⟨← required (optional .float) a, ← required (optional .float) b⟩,
      ← required (optional .float) k)
  | _ => none

/-- Reads a heading, which says that it is one. -/
def HeadingEntry.decoder : Json.Decoder HeadingEntry := fun j => do
  match ← members ["type", "timestamp", "num_games", "engines", "game", "ratings"] j with
  | [kind, timestamp, numGames, engines, game, ratings] =>
    if (← required text kind) ≠ "meta" then none
    return {
      timestamp := ← required text timestamp
      numGames := ← required word32 numGames
      engines := ← required (pairDecoder EngineConfig.decoder) engines
      config := ← required GameConfig.decoder game
      ratings := ← required ratingsDecoder ratings }
  | _ => none

/-- Reads a game, which says that it is one. -/
def GameEntry.decoder : Json.Decoder GameEntry := fun j => do
  match ← members ["type", "game_id", "a_color", "winner", "winner_player", "reason", "turns",
    "history", "board", "a_remaining_ms", "b_remaining_ms", "a_elo", "b_elo"] j with
  | [kind, number, aColor, winner, player, reason, turns, history, board, aLeft, bLeft, a, b] =>
    if (← required text kind) ≠ "result" then none
    return {
      number := (← required word number).toNat
      aColor := ← required Color.decoder aColor
      winner := ← required (optional Color.decoder) winner
      winningPlayer := ← required (optional Player.decoder) player
      reason := ← required Termination.decoder reason
      turns := ← required word32 turns
      history := ← required text history
      board := ← required text board
      remaining := ⟨← required word aLeft, ← required word bLeft⟩
      ratings := ⟨← required (optional .float) a, ← required (optional .float) b⟩ }
  | _ => none

theorem float_known (x : Float) : optional .float (.float x) = some (known x) := Json.float_float x

theorem pairDecoder_record {α : Type} {d : Json.Decoder α} {v : ByPlayer α} {a b : Json}
    (ha : d a = some v.a) (hb : d b = some v.b) :
    pairDecoder d (.record [("a", a), ("b", b)]) = some v := by
  unfold pairDecoder
  rw [members_record (by rfl) (by decide)]
  simp only [List.map_cons, List.map_nil, Option.bind_eq_bind, Option.bind_some, required, ha, hb]
  rfl

theorem ratingsDecoder_json (r : Ratings) :
    ratingsDecoder r.json = some (⟨known r.a, known r.b⟩, known r.k) := by
  unfold ratingsDecoder Ratings.json
  rw [members_record (by rfl) (by decide)]
  simp only [List.map_cons, List.map_nil, Option.bind_eq_bind, Option.bind_some, required,
    float_known]
  rfl

section

variable {h : Heading} {now : Moment} {j : Json}

/-- The form of a heading whose engines have forms. -/
theorem Heading.json_eq {a b : Json} (ha : h.engines.a.json = .ok a)
    (hb : h.engines.b.json = .ok b) :
    h.json now = .ok (.record [
      ("type", .text "meta"),
      ("timestamp", .text now.timestamp),
      ("num_games", .nat h.numGames.toNat),
      ("engines", .record [("a", a), ("b", b)]),
      ("game", h.config.json),
      ("ratings", h.ratings.json)]) := by
  unfold Heading.json
  rw [ha, hb]
  rfl

/-- A heading has a form only if its engines have forms. -/
theorem Heading.exists_of_json (hj : h.json now = .ok j) :
    ∃ a b, h.engines.a.json = .ok a ∧ h.engines.b.json = .ok b := by
  unfold Heading.json at hj
  cases ha : h.engines.a.json with
  | error u =>
    rw [ha] at hj
    cases hj
  | ok a =>
    cases hb : h.engines.b.json with
    | error u =>
      rw [ha, hb] at hj
      cases hj
    | ok b => exact ⟨a, b, rfl, rfl⟩

/-- **The value of a heading tells everything about it.** -/
theorem HeadingEntry.decoder_json (hj : h.json now = .ok j) : decoder j = some (.of h now) := by
  obtain ⟨a, b, ha, hb⟩ := Heading.exists_of_json hj
  obtain rfl := Except.ok.inj (hj.symm.trans (Heading.json_eq ha hb))
  have hengines : pairDecoder EngineConfig.decoder (.record [("a", a), ("b", b)]) =
      some h.engines :=
    pairDecoder_record (EngineConfig.decoder_json ha) (EngineConfig.decoder_json hb)
  unfold decoder
  rw [members_record (by rfl) (by decide)]
  simp only [List.map_cons, List.map_nil, Option.bind_eq_bind, Option.bind_some, required,
    text_text, word32_toNat, hengines, GameConfig.decoder_json, ratingsDecoder_json, ne_eq,
    not_true_eq_false, if_false]
  rfl

/-- A heading stands on one line, whether it has a form or not. -/
theorem Heading.onOneLine_json (h : Heading) (now : Moment) : OnOneLine (h.json now) := by
  refine onOneLine_draft ?_
  have hengines : OnOneLine (Json.draft [("a", h.engines.a.json), ("b", h.engines.b.json)]) := by
    refine onOneLine_draft ?_
    simp [EngineConfig.onOneLine_json]
  simp only [List.forall_mem_cons]
  exact ⟨regular_text _, regular_text _, regular_nat _, hengines, GameConfig.regular_json _,
    Ratings.regular_json _, List.forall_mem_nil _⟩

end

/-- **The value of a game tells everything about it**, if the game has a number. -/
theorem exists_gameJson {s : Summary} (h : s.game.toNat + 1 < UInt32.size) :
    ∃ j, gameJson s = .ok j ∧ j.Regular ∧ GameEntry.decoder j = some (.of s) := by
  have hnext : next s.game = .ok (s.game + 1) := if_pos h
  have hnumber : (s.game + 1).toNat = s.game.toNat + 1 := next_eq_ok_iff.mp hnext
  have hword : word (.nat (s.game + 1).toNat) = some (.ofNat (s.game + 1).toNat) :=
    Json.word_nat (Nat.lt_trans (UInt32.toNat_lt _) (by decide))
  have hback : (UInt64.ofNat (s.game + 1).toNat).toNat = s.game.toNat + 1 := by
    rw [UInt64.toNat_ofNat_of_lt' (Nat.lt_trans (UInt32.toNat_lt _) (by decide)), hnumber]
  unfold gameJson
  rw [hnext]
  refine ⟨_, rfl, ?_, ?_⟩
  · refine regular_record ?_
    simp [regular_text, regular_nat, regular_float, regular_optional, Color.regular_json,
      Player.regular_json, Termination.regular_json]
  · have hwinner := optional_optional Color.decoder_json (fun _ => Json.text_ne_null _)
    have hplayer := optional_optional Player.decoder_json (fun _ => Json.text_ne_null _)
    unfold GameEntry.decoder
    rw [members_record (by rfl) (by decide)]
    simp only [List.map_cons, List.map_nil, Option.bind_eq_bind, Option.bind_some, required,
      text_text, hword, hback, Color.decoder_json, hwinner, hplayer, Termination.decoder_json,
      word32_toNat, word_toNat, float_known, ne_eq, not_true_eq_false, if_false]
    rfl

/-- The value of a game that has a number. -/
def gameValue (s : Summary) : Json := (gameJson s).toOption.getD .null

theorem gameJson_ok {s : Summary} (h : s.game.toNat + 1 < UInt32.size) :
    gameJson s = .ok (gameValue s) ∧ (gameValue s).Regular ∧
      GameEntry.decoder (gameValue s) = some (.of s) := by
  obtain ⟨j, hj, hregular, hdecoder⟩ := exists_gameJson h
  have hvalue : gameValue s = j := by
    rw [gameValue, hj]
    rfl
  rw [hvalue]
  exact ⟨hj, hregular, hdecoder⟩

/-! ## Files -/

/-- The data of a line. -/
def readLine? {α : Type} (d : Json.Decoder α) (line : List UInt8) : Option α :=
  (Text.decode? line).bind (Json.decode? d)

/-- The lines of games that have numbers. -/
theorem mapM_gameLine {games : List Summary} (h : ∀ s ∈ games, s.game.toNat + 1 < UInt32.size) :
    games.mapM gameLine = .ok ((games.map gameValue).map jsonLine) := by
  induction games with
  | nil => rfl
  | cons s games ih =>
    obtain ⟨hs, hgames⟩ := List.forall_mem_cons.mp h
    rw [List.mapM_cons, gameLine, (gameJson_ok hs).1, ih hgames]
    rfl

end Report

end EngineDuel

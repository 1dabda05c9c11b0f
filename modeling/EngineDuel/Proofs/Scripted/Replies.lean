import EngineDuel.Proofs.Scripted.Fields
import EngineDuel.Proofs.Text.Words
import EngineDuel.Proofs.Wire.Segments

/-!
# What a scripted engine replies

To every command but a `gen` that it does not answer, a scripted engine writes one segment: some
remarks and one terminal unit. `Says` names what the unit stands for.

1. A line with the sign of a reply and a space stands for the text after them, without the blanks at
   its ends (`terminal_answer`, `terminal_refusal`).
2. Each reaction is one segment, with its remarks (`tells_…`).
3. Each command is read as its words, so it leads to its reaction (`reacts_…`).
-/

namespace EngineDuel.Scripted

open EngineDuel.Wire

/-- These lines are one segment, whose terminal unit stands for `said`. -/
def Says (lines : List (List Char)) (said : Except String (Option String)) : Prop :=
  ∃ s : Segment, s.lines = lines.map (.line ∘ String.ofList) ∧ s.said = said

/-- These lines are one segment with these remarks, whose terminal unit stands for `said`. -/
def Tells (lines : List (List Char)) (remarks : List String)
    (said : Except String (Option String)) : Prop :=
  ∃ s : Segment, s.lines = lines.map (.line ∘ String.ofList) ∧ s.remarks = remarks ∧ s.said = said

theorem Tells.toSays {lines : List (List Char)} {remarks : List String}
    {said : Except String (Option String)} (h : Tells lines remarks said) : Says lines said :=
  h.imp fun _ h => ⟨h.1, h.2.2⟩

/-! ## Terminal units -/

/-- What an answer with a text brings: the text without the blanks at its ends, if anything is left
of it. -/
def payload? (text : List Char) : Option String :=
  if Text.trim text = [] then none else some (String.ofList (Text.trim text))

theorem payload?_eq_some {text : List Char} (hne : text ≠ [])
    (hfirst : ∀ c ∈ text.head?, Text.isBlank c = false)
    (hlast : ∀ c ∈ text.getLast?, Text.isBlank c = false) :
    payload? text = some (String.ofList text) := by
  rw [payload?, Text.trim_eq_self hfirst hlast, if_neg hne]

theorem not_isBlank_done : Text.isBlank '=' = false := by decide

/-- An answer after a space. -/
theorem terminal_answer {text : List Char} (h : streamStart ∉ text) :
    Terminal [.line (String.ofList ('=' :: ' ' :: text))] (.ok (payload? text)) := by
  have htrim : Text.trim (String.ofList ('=' :: ' ' :: text)).toList =
      '=' :: Text.trimEnd (' ' :: text) := by
    rw [String.toList_ofList, Text.trim_cons not_isBlank_done]
  have hsame : Text.trim (Text.trimEnd (' ' :: text)) = Text.trim text := by
    rw [Text.trim_trimEnd, Text.trim_cons_of_blank (by decide)]
  unfold payload?
  by_cases hnil : Text.trim text = []
  · rw [if_pos hnil]
    have hblank : Text.trimEnd (' ' :: text) = [] :=
      Text.trimEnd_eq_nil_iff.mpr
        (List.forall_mem_cons.mpr ⟨by decide, Text.trim_eq_nil_iff.mp hnil⟩)
    exact .done (by rw [htrim, hblank])
  · rw [if_neg hnil, ← hsame]
    have hmark : streamStart ∉ Text.trimEnd (' ' :: text) := fun hmem => by
      rcases List.mem_cons.mp (Text.trimEnd_subset _ hmem) with hspace | hmem
      · exact absurd hspace (by decide)
      · exact h hmem
    refine .answer htrim (fun hempty => hnil ?_) ?_
    · rw [← hsame, hempty]
      rfl
    · rintro first (hopens | hopens) <;> rw [htrim, List.cons.injEq] at hopens <;>
        exact hmark (by simp [hopens.2])

/-- A refusal after a space. -/
theorem terminal_refusal (message : List Char) :
    Terminal [.line (String.ofList ('?' :: ' ' :: message))]
      (.error (String.ofList (Text.trim message))) := by
  have htrim : Text.trim (String.ofList ('?' :: ' ' :: message)).toList =
      '?' :: Text.trimEnd (' ' :: message) := by
    rw [String.toList_ofList, Text.trim_cons (by decide)]
  have hrefusal := Terminal.refusal htrim
  rwa [Text.trim_trimEnd, Text.trim_cons_of_blank (by decide)] at hrefusal

/-- A line that is neither blank nor a reply. -/
def IsTalk (line : List Char) : Prop :=
  ∃ c rest, line = c :: rest ∧ Text.isBlank c = false ∧ c ≠ '=' ∧ c ≠ '?'

theorem IsTalk.isNoise {line : List Char} (h : IsTalk line) :
    (Incoming.line (String.ofList line)).IsNoise := by
  obtain ⟨c, rest, rfl, hblank, hdone, hrefusal⟩ := h
  show (Text.trim (String.ofList (c :: rest)).toList).head? ≠ some '=' ∧
    (Text.trim (String.ofList (c :: rest)).toList).head? ≠ some '?'
  rw [String.toList_ofList, Text.head?_trim_cons hblank]
  exact ⟨fun h => hdone (Option.some.inj h), fun h => hrefusal (Option.some.inj h)⟩

theorem IsTalk.remark?_eq {line : List Char} (h : IsTalk line) :
    (Incoming.line (String.ofList line)).remark? = some (String.ofList (Text.trim line)) := by
  obtain ⟨c, rest, rfl, hblank, -, -⟩ := h
  have hne : Text.trim (c :: rest) ≠ [] := by
    rw [Text.trim_cons hblank]
    exact List.cons_ne_nil _ _
  rw [Incoming.remark?, String.toList_ofList, if_neg hne]

/-- Remarks and one more line that is a terminal unit. -/
theorem tells_of_talk {talk : List (List Char)} {text : List Char}
    {said : Except String (Option String)} (htalk : ∀ line ∈ talk, IsTalk line)
    (h : Terminal [.line (String.ofList text)] said) :
    Tells (talk ++ [text]) (talk.map (String.ofList ∘ Text.trim)) said := by
  refine ⟨⟨talk.map (.line ∘ String.ofList), _, _, fun line hline => ?_, h⟩, ?_, ?_, rfl⟩
  · obtain ⟨text, htext, rfl⟩ := List.mem_map.mp hline
    exact (htalk text htext).isNoise
  · rw [List.map_append]
    rfl
  · show (talk.map (Incoming.line ∘ String.ofList)).filterMap Incoming.remark? = _
    rw [List.filterMap_map, ← List.filterMap_eq_map]
    exact List.filterMap_congr fun line hline => (htalk line hline).remark?_eq

theorem tells_of_terminal {text : List Char} {said : Except String (Option String)}
    (h : Terminal [.line (String.ofList text)] said) : Tells [text] [] said :=
  tells_of_talk (List.forall_mem_nil _) h

/-- A bare sign of success. -/
theorem tells_done : Tells [['=']] [] (.ok none) :=
  tells_of_terminal (.done (by decide))

theorem tells_none : Tells ["= none".toList] [] (.ok (some "none")) :=
  tells_of_terminal (@terminal_answer "none".toList (by decide))

/-! ## Reactions -/

theorem plain_coordinate (n : ℕ) :
    ∀ c ∈ coordinate n, Text.isBlank c = false ∧ c ≠ streamStart := by
  intro c hc
  have hc := isPlain_of_mem_coordinate hc
  refine ⟨hc.not_isBlank, ?_⟩
  rintro rfl
  exact absurd hc.1 (by decide)

/-- The remarks of an engine that talks. -/
def talk (o : Options) (s : State) : List (List Char) :=
  if o.chatter then
    [("info depth 1 nodes " ++ toString (s.moves.length + 1)).toList,
      "solution: pos=".toList ++ coordinate s.moves.length ++
        (", total=" ++ toString s.totalMs.toNat).toList]
  else []

theorem isTalk_talk (o : Options) (s : State) : ∀ line ∈ talk o s, IsTalk line := by
  intro line hline
  unfold talk at hline
  by_cases hchatter : o.chatter = true
  · rw [if_pos hchatter] at hline
    rcases List.mem_cons.mp hline with rfl | hline
    · rw [String.toList_append]
      exact ⟨'i', _, rfl, by decide, by decide, by decide⟩
    · rw [List.mem_singleton.mp hline]
      exact ⟨'s', _, rfl, by decide, by decide, by decide⟩
  · rw [if_neg hchatter] at hline
    cases hline

/-- A named move, after the remarks. -/
theorem tells_move (o : Options) (s : State) :
    Tells (talk o s ++ [['=', ' '] ++ coordinate s.moves.length])
      ((talk o s).map (String.ofList ∘ Text.trim))
      (.ok (some (String.ofList (coordinate s.moves.length)))) := by
  have hplain := plain_coordinate s.moves.length
  have hpayload : payload? (coordinate s.moves.length) =
      some (String.ofList (coordinate s.moves.length)) :=
    payload?_eq_some (coordinate_ne_nil _) (fun c hc => (hplain c (List.mem_of_head? hc)).1)
      fun c hc => (hplain c (List.mem_of_getLast? hc)).1
  rw [← hpayload]
  exact tells_of_talk (isTalk_talk o s)
    (terminal_answer fun hmark => (hplain _ hmark).2 rfl)

/-- The text of the moves played. -/
def historyText (n : ℕ) : String := String.ofList (Text.join [' '] (placed n))

/-- A history is shown, unless it is empty. -/
theorem tells_history {moves : List (List Char)} (h : ∀ move ∈ moves,
      move ≠ [] ∧ ∀ c ∈ move, Text.isBlank c = false ∧ c ≠ streamStart) :
    Tells [['=', ' '] ++ Text.join [' '] moves] []
      (.ok (if moves = [] then none else some (String.ofList (Text.join [' '] moves)))) := by
  by_cases hnil : moves = []
  · subst hnil
    exact tells_of_terminal (.done (by decide))
  · have hpayload : payload? (Text.join [' '] moves) =
        some (String.ofList (Text.join [' '] moves)) :=
      payload?_eq_some (Text.join_ne_nil hnil fun move hmove => (h move hmove).1)
        (fun c hc => (Text.head?_join h c hc).1) fun c hc => (Text.getLast?_join h c hc).1
    rw [if_neg hnil, ← hpayload]
    refine tells_of_terminal (terminal_answer fun hmark => ?_)
    rcases Text.mem_join hmark with hspace | ⟨move, hmove, hmem⟩
    · exact absurd hspace (by decide)
    · exact ((h move hmove).2 _ hmem).2 rfl

/-! ### The board -/

/-- The text of the board. -/
def boardText (n : ℕ) : String := String.ofList (Text.join ['\n'] (boardRows n))

section Board

variable (s : State) (r : ℕ)

variable {s r} in
theorem mem_row {c : Char} (h : c ∈ s.row r) : c = 'X' ∨ c = 'O' ∨ c = '.' := by
  obtain ⟨column, -, rfl⟩ := List.mem_map.mp h
  unfold State.cell
  split
  · split_ifs
    · exact .inl rfl
    · exact .inr (.inl rfl)
  · exact .inr (.inr rfl)

/-- Characters of rows are neither blank nor marks. -/
theorem plain_row : ∀ c ∈ s.row r,
    Text.isBlank c = false ∧ c ≠ '\n' ∧ c ≠ '\r' ∧ c ≠ streamEnd := by
  intro c hc
  rcases mem_row hc with rfl | rfl | rfl <;> decide

theorem row_ne_nil : s.row r ≠ [] := List.cons_ne_nil _ _

theorem rows_eq : s.rows = s.row 14 :: (List.range 14).reverse.map s.row := rfl

/-- The lines of a board: the highest row after the mark of the start, the other rows, and the mark
of the end. -/
theorem textLines_board :
    textLines (['=', streamStart] ++ Text.join ['\n'] s.rows ++ ['\n', streamEnd]) =
      ('=' :: streamStart :: s.row 14) :: ((List.range 14).reverse.map s.row ++ [[streamEnd]]) := by
  have hjoin : Text.splitAt (· == '\n') (Text.join ['\n'] s.rows ++ '\n' :: [streamEnd]) =
      s.row 14 :: ((List.range 14).reverse.map s.row ++ [[streamEnd]]) := by
    rw [Text.splitAt_join, rows_eq]
    · rfl
    · rw [rows_eq]
      exact List.cons_ne_nil _ _
    · intro row hrow hfeed
      obtain ⟨r, -, rfl⟩ := List.mem_map.mp hrow
      exact (plain_row s r _ hfeed).2.1 rfl
  unfold textLines
  rw [List.append_assoc]
  exact Text.splitAt_append
    (List.forall_mem_cons.mpr ⟨by decide, List.forall_mem_singleton.mpr (by decide)⟩) hjoin

theorem opens_board :
    Opens (String.ofList ('=' :: streamStart :: s.row 14)).toList (s.row 14) := by
  left
  rw [String.toList_ofList]
  refine Text.trim_eq_self (by simpa using not_isBlank_done) fun c hc => ?_
  rcases List.mem_cons.mp (List.mem_of_getLast? hc) with rfl | hc
  · decide
  · rcases List.mem_cons.mp hc with rfl | hc
    · decide
    · exact (plain_row s 14 c hc).1

/-- A row does not end the stream, and counts as it is. -/
theorem inner_row :
    (Incoming.line (String.ofList (s.row r))).IsInner ∧
      Incoming.inner? (.line (String.ofList (s.row r))) = some (s.row r) := by
  have hreturn : (s.row r).getLast? ≠ some '\r' :=
    fun h => (plain_row s r _ (List.mem_of_getLast? h)).2.2.1 rfl
  constructor
  · show streamEnd ∉ (String.ofList (s.row r)).toList
    rw [String.toList_ofList]
    exact fun h => (plain_row s r _ h).2.2.2 rfl
  · show some (Inbox.streamLine (String.ofList (s.row r)).toList) = some (s.row r)
    rw [String.toList_ofList, Inbox.streamLine, if_neg hreturn]

/-- A board is shown as a stream. -/
theorem tells_board :
    Tells (textLines (['=', streamStart] ++ Text.join ['\n'] s.rows ++ ['\n', streamEnd])) []
      (.ok (some (String.ofList (Text.join ['\n'] s.rows)))) := by
  have hterminal := @Terminal.stream _ (String.ofList [streamEnd]) _ [] []
    ((List.range 14).reverse.map (.line ∘ String.ofList ∘ s.row)) (opens_board s)
    (fun h => (plain_row s 14 _ h).2.2.2 rfl) (fun line hline => by
      obtain ⟨r, -, rfl⟩ := List.mem_map.mp hline
      exact (inner_row s r).1) (by decide) List.not_mem_nil
  refine ⟨⟨[], _, _, List.forall_mem_nil _, hterminal⟩, ?_, rfl, ?_⟩
  · rw [textLines_board]
    simp [Segment.lines]
  · have hlater : ((List.range 14).reverse.map (Incoming.line ∘ String.ofList ∘ s.row)).filterMap
        Incoming.inner? = (List.range 14).reverse.map s.row := by
      rw [List.filterMap_map, ← List.filterMap_eq_map]
      congr 1
      funext r
      exact (inner_row s r).2
    show Except.ok (some (String.ofList (Text.join ['\n'] _))) = _
    rw [hlater]
    unfold markLine
    rw [if_neg (row_ne_nil s 14), rows_eq]
    simp

end Board

/-! ## Commands -/

/-- The options of an engine that refuses nothing and declares a win for who has moved last. -/
structure Options.Plain (o : Options) : Prop where
  winner_eq : o.winner = none
  reject_eq : o.reject = none

/-- What the engine declares after move `n`. -/
def declared? (o : Options) (n : ℕ) : Option String :=
  if o.finishAfter = some n then some ((colorOfPly n).name ++ " wins") else none

/-- On a command the engine thinks for some time, goes over to `s'`, and says this. -/
def Reacts (o : Options) (s : State) (command : String) (think : Duration) (said : Option String)
    (s' : State) : Prop :=
  ∃ lines, onLine o s command.toList = (.lines think lines, s') ∧ Says lines (.ok said)

section Commands

variable {o : Options} {s : State} {command : String} {word : List Char} {args : List (List Char)}

theorem onLine_of_words
    (hwords : Text.words command.toList = word :: args) (hquit : word ≠ "quit".toList) :
    onLine o s command.toList = onCommand o s word args := by
  unfold onLine
  rw [hwords]
  exact if_neg hquit

theorem onCommand_eq (ho : o.Plain) : onCommand o s word args =
    if word = "limit".toList then
      (.now [['=']], { s with totalMs := (toldTotal? args).getD s.totalMs })
    else if word = "gen".toList then (onGen o s, s)
    else if word = "play".toList then
      match args with
      | [] => (refusal "missing move".toList, s)
      | move :: _ =>
        let s := { s with moves := s.moves ++ [move] }
        (onPly o s.moves.length, s)
    else if word = "history".toList then (.now [['=', ' '] ++ Text.join [' '] s.moves], s)
    else if word = "board".toList then
      (.now (textLines (['=', Wire.streamStart] ++ Text.join ['\n'] s.rows
        ++ ['\n', Wire.streamEnd])), s)
    else (refusal ("unknown command: ".toList ++ word), s) := by
  unfold onCommand
  rw [ho.reject_eq]
  rfl

theorem reacts_limit (ho : o.Plain) {rest : List Char}
    (h : command.toList = "limit".toList ++ ' ' :: rest) :
    ∃ totalMs, Reacts o s command .zero none { s with totalMs } := by
  have hwords : Text.words command.toList = "limit".toList :: Text.words rest := by
    rw [h, Text.words_cons (by decide) (Text.not_isBlank_of_all (by decide))]
  refine ⟨(toldTotal? (Text.words rest)).getD s.totalMs, [['=']], ?_, tells_done.toSays⟩
  rw [onLine_of_words hwords (by decide), onCommand_eq ho, if_pos rfl]
  rfl

theorem onLine_gen (ho : o.Plain) : onLine o s "gen".toList = (onGen o s, s) := by
  have hwords : Text.words "gen".toList = ["gen".toList] := by decide
  rw [onLine_of_words hwords (by decide), onCommand_eq ho, if_neg (by decide), if_pos rfl]

/-- What the engine names as its next move. -/
def ownMove (o : Options) (n : ℕ) : String :=
  if o.noneAt = some n then "none" else String.ofList (coordinate n)

/-- How long the engine thinks about its next move; it does not if it has none. -/
def thinking (o : Options) (n : ℕ) : Duration :=
  if o.noneAt = some n then .zero else .ofMillis o.thinkMs.toNat

theorem reacts_gen (ho : o.Plain) (hstall : o.stallAt ≠ some s.moves.length) :
    Reacts o s "gen" (thinking o s.moves.length) (some (ownMove o s.moves.length)) s := by
  unfold Reacts ownMove thinking
  rw [onLine_gen ho]
  unfold onGen
  dsimp only
  rw [if_neg hstall]
  by_cases hnone : o.noneAt = some s.moves.length
  · rw [if_pos hnone, if_pos hnone, if_pos hnone]
    exact ⟨_, rfl, tells_none.toSays⟩
  · rw [if_neg hnone, if_neg hnone, if_neg hnone]
    exact ⟨_, rfl, (tells_move o s).toSays⟩

theorem says_onPly (ho : o.Plain) (n : ℕ) :
    ∃ lines, onPly o n = .now lines ∧ Says lines (.ok (declared? o n)) := by
  unfold onPly declared?
  by_cases hfinish : o.finishAfter = some n
  · rw [if_pos hfinish, if_pos hfinish, ho.winner_eq]
    refine ⟨_, rfl, ?_⟩
    cases colorOfPly n with
    | black => exact (tells_of_terminal (@terminal_answer "black wins".toList (by decide))).toSays
    | white => exact (tells_of_terminal (@terminal_answer "white wins".toList (by decide))).toSays
  · rw [if_neg hfinish, if_neg hfinish]
    exact ⟨_, rfl, tells_done.toSays⟩

theorem reacts_play (ho : o.Plain) {n : ℕ} (hs : s.moves = placed n) :
    Reacts o s ("play " ++ String.ofList (coordinate n)) .zero (declared? o (n + 1))
      { s with moves := placed (n + 1) } := by
  have hwords : Text.words ("play " ++ String.ofList (coordinate n)).toList =
      ["play".toList, coordinate n] := by
    have htext : ("play " ++ String.ofList (coordinate n)).toList =
        "play".toList ++ ' ' :: coordinate n := by
      simp only [String.toList_append, String.toList_ofList]
      rfl
    rw [htext, Text.words_cons (by decide) (Text.not_isBlank_of_all (by decide)),
      Text.words_eq_singleton (coordinate_ne_nil n) fun c hc => (plain_coordinate n c hc).1]
  obtain ⟨lines, hlines, hsays⟩ := says_onPly ho (n + 1)
  refine ⟨lines, ?_, hsays⟩
  rw [onLine_of_words hwords (by decide), onCommand_eq ho, if_neg (by decide), if_neg (by decide),
    if_pos rfl]
  have hmoves : s.moves ++ [coordinate n] = placed (n + 1) := by rw [hs, placed_succ]
  simp only [hmoves, length_placed, hlines]
  rfl

theorem reacts_history (ho : o.Plain) {n : ℕ} (hs : s.moves = placed n) :
    Reacts o s "history" .zero (if n = 0 then none else some (historyText n)) s := by
  have hwords : Text.words "history".toList = ["history".toList] := by decide
  have hplaced : ∀ move ∈ placed n, move ≠ [] ∧
      ∀ c ∈ move, Text.isBlank c = false ∧ c ≠ streamStart := by
    intro move hmove
    obtain ⟨k, -, rfl⟩ := List.mem_map.mp hmove
    exact ⟨coordinate_ne_nil k, plain_coordinate k⟩
  have hnil : placed n = [] ↔ n = 0 := by rw [← List.length_eq_zero_iff, length_placed]
  have htells := tells_history hplaced
  simp only [hnil] at htells
  refine ⟨_, ?_, htells.toSays⟩
  rw [onLine_of_words hwords (by decide), onCommand_eq ho, if_neg (by decide), if_neg (by decide),
    if_neg (by decide), if_pos rfl, hs]
  rfl

theorem reacts_board (ho : o.Plain) {n : ℕ} (hs : s.moves = placed n) :
    Reacts o s "board" .zero (some (boardText n)) s := by
  have hwords : Text.words "board".toList = ["board".toList] := by decide
  have hsays := (tells_board s).toSays
  rw [rows_placed hs] at hsays
  refine ⟨_, ?_, hsays⟩
  rw [onLine_of_words hwords (by decide), onCommand_eq ho, if_neg (by decide), if_neg (by decide),
    if_neg (by decide), if_neg (by decide), if_pos rfl, rows_placed hs]
  rfl

end Commands

end EngineDuel.Scripted

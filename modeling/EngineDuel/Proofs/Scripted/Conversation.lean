import EngineDuel.Proofs.Scripted.Sessions
import EngineDuel.Proofs.Wire.InStep

/-!
# A scripted engine and its client in lock step

A scripted engine writes and its client reads, and neither knows how the other does it. Yet each
request brings what the command means in the state of the engine (`answer`), with the remarks that
belong to it and nothing left over, whatever the commands are and in whatever order they come, as long
as the client leaves the engine the time to think (`requests_answered`).

1. What a command means does not mention how it is written: `answer` says what is replied and
   remarked, and which state the engine goes over to.
2. On a line with a command the engine writes one segment that tells its meaning
   (`onLine_answer`), as the moves that it was told are words (`HasWords`).
3. So one request takes the engine from one state to the next (`Reached.request`), and any number of
   requests takes it through all of them (`Reached.after`).
-/

namespace EngineDuel.Scripted

open EngineDuel.Wire

/-! ## What commands mean -/

/-- What a command means: what is replied, what is remarked before, how long the engine thinks
first, and its state afterwards. -/
structure Answer where
  said : Except String (Option String)
  remarks : List String := []
  think : Duration := .zero
  state : State

/-- What an engine declares after move `n`. -/
def declares? (o : Options) (n : ℕ) : Option String :=
  if o.finishAfter = some n then
    payload? (o.winner.getD ((colorOfPly n).name ++ " wins")).toList
  else none

/-- What a command with its arguments means. -/
def answerTo (o : Options) (s : State) (word : List Char) (args : List (List Char)) : Answer :=
  if o.reject.map String.toList = some word then
    { said := .error (String.ofList (word ++ " is not available".toList)), state := s }
  else if word = "limit".toList then
    { said := .ok none, state := { s with totalMs := (toldTotal? args).getD s.totalMs } }
  else if word = "gen".toList then
    if o.noneAt = some s.moves.length then { said := .ok (some "none"), state := s }
    else
      { said := .ok (some (String.ofList (coordinate s.moves.length)))
        remarks := (talk o s).map String.ofList
        think := .ofMillis o.thinkMs.toNat
        state := s }
  else if word = "play".toList then
    match args with
    | [] => { said := .error "missing move", state := s }
    | move :: _ =>
      { said := .ok (declares? o (s.moves.length + 1))
        state := { s with moves := s.moves ++ [move] } }
  else if word = "history".toList then
    { said := .ok (if s.moves = [] then none else some (String.ofList (Text.join [' '] s.moves)))
      state := s }
  else if word = "board".toList then
    { said := .ok (some (String.ofList (Text.join ['\n'] s.rows))), state := s }
  else { said := .error (String.ofList ("unknown command: ".toList ++ word)), state := s }

/-- What a line with a command means. -/
def answer (o : Options) (s : State) (command : String) : Answer :=
  answerTo o s ((Text.words command.toList).headD []) (Text.words command.toList).tail

/-- The state after some commands. -/
def stateAfter (o : Options) (s : State) (commands : List String) : State :=
  commands.foldl (fun s command => (answer o s command).state) s

/-! ## Commands and engines -/

/-- A control character. -/
def IsControl (c : Char) : Prop := c.toNat < 0x20 ∨ 0x7f ≤ c.toNat ∧ c.toNat < 0xa0

instance : DecidablePred IsControl :=
  fun c => inferInstanceAs (Decidable (c.toNat < 0x20 ∨ 0x7f ≤ c.toNat ∧ c.toNat < 0xa0))

theorem isControl_streamStart : IsControl streamStart := by decide

/-- A text without control characters. -/
def IsPrintable (text : List Char) : Prop := ∀ c ∈ text, ¬ IsControl c

instance (text : List Char) : Decidable (IsPrintable text) :=
  List.decidableBAll (fun c => ¬ IsControl c) text

/-- A line that asks for something, and not for the end of the conversation. -/
structure IsCommand (command : String) : Prop where
  plain : IsPrintable command.toList
  asks : ∃ c ∈ command.toList, Text.isBlank c = false
  stays : (Text.words command.toList).head? ≠ some "quit".toList

instance (command : String) : Decidable (IsCommand command) :=
  -- found along the text, not among all characters
  haveI := List.decidableBEx (fun c => Text.isBlank c = false) command.toList
  decidable_of_iff (IsPrintable command.toList ∧
      (∃ c ∈ command.toList, Text.isBlank c = false) ∧
      (Text.words command.toList).head? ≠ some "quit".toList)
    ⟨fun h => ⟨h.1, h.2.1, h.2.2⟩, fun h => ⟨h.plain, h.asks, h.stays⟩⟩

/-- An engine that answers every command. -/
structure Options.Answers (o : Options) : Prop where
  stallAt_eq : o.stallAt = none
  winner_plain : ∀ winner, o.winner = some winner → IsPrintable winner.toList

/-- The moves of a state are words. -/
def HasWords (s : State) : Prop :=
  ∀ move ∈ s.moves, move ≠ [] ∧ ∀ c ∈ move, Text.isBlank c = false ∧ c ≠ streamStart

theorem IsCommand.isLine {command : String} (h : IsCommand command) : IsLine command :=
  ⟨fun hfeed => h.plain _ hfeed (by decide), fun hreturn => h.plain _ hreturn (by decide)⟩

/-- The words of a command. -/
theorem IsCommand.words {command : String} (h : IsCommand command) :
    ∃ word args, Text.words command.toList = word :: args ∧ word ≠ "quit".toList ∧
      ∀ w ∈ word :: args, w ≠ [] ∧ ∀ c ∈ w, Text.isBlank c = false ∧ c ≠ streamStart := by
  obtain ⟨c, hc, hblank⟩ := h.asks
  obtain ⟨word, args, hwords⟩ := List.exists_cons_of_ne_nil (Text.words_ne_nil hc hblank)
  have hstays := h.stays
  rw [hwords] at hstays
  refine ⟨word, args, hwords, fun heq => hstays (congrArg some heq), fun w hw => ?_⟩
  obtain ⟨hne, hmem⟩ := Text.mem_words (hwords ▸ hw)
  refine ⟨hne, fun c hc => ⟨(hmem c hc).2, ?_⟩⟩
  rintro rfl
  exact h.plain _ (hmem _ hc).1 isControl_streamStart

/-! ## One command -/

theorem not_isBlank_of_getLast?_append {text word : List Char} (hne : word ≠ [])
    (hword : ∀ c ∈ word, Text.isBlank c = false) :
    ∀ c ∈ (text ++ word).getLast?, Text.isBlank c = false := by
  intro c hc
  rw [List.getLast?_append, List.getLast?_eq_some_getLast hne, Option.some_or] at hc
  cases hc
  exact hword _ (List.getLast_mem hne)

/-- A remark that ends with a number has no blanks at its ends. -/
theorem trim_number {text : List Char} {c : Char} (hfirst : text.head? = some c)
    (hc : Text.isBlank c = false) (n : ℕ) :
    Text.trim (text ++ (toString n).toList) = text ++ (toString n).toList := by
  have hdigits : ∀ d ∈ (toString n).toList, Text.isBlank d = false := fun d hd => by
    rw [Nat.toString_eq_repr, Nat.toList_repr] at hd
    exact (IsPlain.of_isDigit (Nat.isDigit_of_mem_toDigits (by decide) (by decide) hd)).not_isBlank
  have hne : (toString n).toList ≠ [] := by
    rw [Nat.toString_eq_repr, Nat.toList_repr]
    exact Nat.toDigits_ne_nil
  refine Text.trim_eq_self ?_ (not_isBlank_of_getLast?_append hne hdigits)
  rw [List.head?_append, hfirst]
  rintro d ⟨⟩
  exact hc

theorem trim_talk (o : Options) (s : State) :
    (talk o s).map (String.ofList ∘ Text.trim) = (talk o s).map String.ofList := by
  refine List.map_congr_left fun line hline => congrArg String.ofList ?_
  unfold talk at hline
  by_cases hchatter : o.chatter = true
  · rw [if_pos hchatter] at hline
    rcases List.mem_cons.mp hline with rfl | hline
    · rw [String.toList_append]
      exact @trim_number _ 'i' rfl (by decide) _
    · rw [List.mem_singleton.mp hline, String.toList_append, ← List.append_assoc]
      exact @trim_number _ 's' rfl (by decide) _
  · rw [if_neg hchatter] at hline
    cases hline

theorem tells_refusal {message : List Char}
    (hfirst : ∀ c ∈ message.head?, Text.isBlank c = false)
    (hlast : ∀ c ∈ message.getLast?, Text.isBlank c = false) :
    Tells [['?', ' '] ++ message] [] (.error (String.ofList message)) := by
  have hrefusal := terminal_refusal message
  rw [Text.trim_eq_self hfirst hlast] at hrefusal
  exact tells_of_terminal hrefusal

section Command

variable {o : Options} {s : State} {word : List Char} {args : List (List Char)}

/-- What is declared has no control characters. -/
theorem Options.Answers.declared_plain (ho : o.Answers) (n : ℕ) :
    IsPrintable (o.winner.getD ((colorOfPly n).name ++ " wins")).toList := by
  cases hwinner : o.winner with
  | none => cases colorOfPly n <;> decide
  | some winner => exact ho.winner_plain winner hwinner

theorem onPly_answer (ho : o.Answers) (n : ℕ) :
    ∃ lines, onPly o n = .now lines ∧ Tells lines [] (.ok (declares? o n)) := by
  unfold onPly declares?
  by_cases hfinish : o.finishAfter = some n
  · rw [if_pos hfinish, if_pos hfinish]
    have hplain := ho.declared_plain n
    have hline : ∀ c ∈ ['=', ' '] ++ (o.winner.getD ((colorOfPly n).name ++ " wins")).toList,
        (c == '\n') = false := by
      refine fun c hc => beq_eq_false_iff_ne.mpr ?_
      rintro rfl
      obtain hmark | hdeclared := List.mem_append.mp hc
      · exact absurd hmark (by decide)
      · exact hplain _ hdeclared (by decide)
    have hone : textLines (['=', ' '] ++ (o.winner.getD ((colorOfPly n).name ++ " wins")).toList) =
        [['=', ' '] ++ (o.winner.getD ((colorOfPly n).name ++ " wins")).toList] :=
      Text.splitAt_eq_singleton hline
    exact ⟨_, congrArg Reaction.now hone,
      tells_of_terminal (terminal_answer fun hmark => hplain _ hmark isControl_streamStart)⟩
  · rw [if_neg hfinish, if_neg hfinish]
    exact ⟨_, rfl, tells_done⟩

theorem onGen_answer (ho : o.Answers) (hnone : o.noneAt ≠ some s.moves.length) :
    onGen o s = .lines (.ofMillis o.thinkMs.toNat)
      (talk o s ++ [['=', ' '] ++ coordinate s.moves.length]) := by
  have hstall : o.stallAt ≠ some s.moves.length := by simp [ho.stallAt_eq]
  unfold onGen
  rw [if_neg hstall, if_neg hnone]
  rfl

theorem onGen_none (ho : o.Answers) (hnone : o.noneAt = some s.moves.length) :
    onGen o s = .now ["= none".toList] := by
  have hstall : o.stallAt ≠ some s.moves.length := by simp [ho.stallAt_eq]
  unfold onGen
  rw [if_neg hstall, if_pos hnone]

/-- **The engine tells what a command means**, and its moves remain words. -/
theorem onCommand_answer (ho : o.Answers) (hs : HasWords s)
    (hwords : ∀ w ∈ word :: args, w ≠ [] ∧ ∀ c ∈ w, Text.isBlank c = false ∧ c ≠ streamStart) :
    ∃ lines, onCommand o s word args =
        (.lines (answerTo o s word args).think lines, (answerTo o s word args).state) ∧
      Tells lines (answerTo o s word args).remarks (answerTo o s word args).said ∧
      HasWords (answerTo o s word args).state := by
  obtain ⟨⟨hne, hplain⟩, hargs⟩ := List.forall_mem_cons.mp hwords
  unfold onCommand answerTo
  by_cases hreject : o.reject.map String.toList = some word
  · rw [if_pos hreject, if_pos hreject]
    refine ⟨_, rfl, tells_refusal (fun c hc => ?_) (fun c hc => ?_), hs⟩
    · rw [List.head?_append_of_ne_nil _ hne] at hc
      exact (hplain c (List.mem_of_head? hc)).1
    · rw [List.getLast?_append] at hc
      cases hc
      decide
  rw [if_neg hreject, if_neg hreject]
  by_cases hlimit : word = "limit".toList
  · rw [if_pos hlimit, if_pos hlimit]
    exact ⟨_, rfl, tells_done, hs⟩
  rw [if_neg hlimit, if_neg hlimit]
  by_cases hgen : word = "gen".toList
  · rw [if_pos hgen, if_pos hgen]
    by_cases hnone : o.noneAt = some s.moves.length
    · rw [if_pos hnone, onGen_none ho hnone]
      exact ⟨_, rfl, tells_none, hs⟩
    · rw [if_neg hnone, onGen_answer ho hnone]
      have htells := tells_move o s
      rw [trim_talk] at htells
      exact ⟨_, rfl, htells, hs⟩
  rw [if_neg hgen, if_neg hgen]
  by_cases hplay : word = "play".toList
  · rw [if_pos hplay, if_pos hplay]
    cases args with
    | nil => exact ⟨_, rfl, tells_refusal (by rintro _ ⟨⟩; rfl) (by rintro _ ⟨⟩; rfl), hs⟩
    | cons move rest =>
      obtain ⟨lines, hlines, htells⟩ := onPly_answer ho (s.moves.length + 1)
      refine ⟨lines, ?_, htells, List.forall_mem_append.mpr
        ⟨hs, List.forall_mem_singleton.mpr (hargs move List.mem_cons_self)⟩⟩
      simp only [List.length_append, List.length_singleton, hlines]
      rfl
  rw [if_neg hplay, if_neg hplay]
  by_cases hhistory : word = "history".toList
  · rw [if_pos hhistory, if_pos hhistory]
    exact ⟨_, rfl, tells_history hs, hs⟩
  rw [if_neg hhistory, if_neg hhistory]
  by_cases hboard : word = "board".toList
  · rw [if_pos hboard, if_pos hboard]
    exact ⟨_, rfl, tells_board s, hs⟩
  rw [if_neg hboard, if_neg hboard]
  refine ⟨_, rfl, tells_refusal ?_ ?_, hs⟩
  · rintro c ⟨⟩
    decide
  · exact not_isBlank_of_getLast?_append hne fun c hc => (hplain c hc).1

/-- The engine thinks about `gen` only. -/
theorem think_answerTo : (answerTo o s word args).think = .zero ∨
    word = "gen".toList ∧ (answerTo o s word args).think = .ofMillis o.thinkMs.toNat := by
  unfold answerTo
  split_ifs
  all_goals first
    | exact .inl rfl
    | exact .inr ⟨‹_›, rfl⟩
    | cases args <;> exact .inl rfl

variable {command : String}

/-- A line with a command is read as the command. -/
theorem onLine_answer (ho : o.Answers) (hs : HasWords s) (h : IsCommand command) :
    ∃ lines, onLine o s command.toList =
        (.lines (answer o s command).think lines, (answer o s command).state) ∧
      Tells lines (answer o s command).remarks (answer o s command).said ∧
      HasWords (answer o s command).state := by
  obtain ⟨word, args, hwords, hquit, hplain⟩ := h.words
  unfold answer
  rw [onLine_of_words hwords hquit, hwords]
  exact onCommand_answer ho hs hplain

end Command

/-! ## A conversation -/

/-- The session after some requests. -/
def after (p : Peer Talker) (s : Session Talker) (queries : List Query) : Session Talker :=
  queries.foldl (fun s q => (Session.request p s q.command q.limit).2) s

/-- A request whose limit, its own or else the client's, leaves the engine the time to think. -/
def InTime (pace : Pace) (o : Options) (limit : Option Duration) (q : Query) : Prop :=
  (Text.words q.command.toList).head? = some "gen".toList →
    ∀ l, q.limit.or limit = some l → pace.late (.ofMillis o.thinkMs.toNat) l = false

/-- A session between two requests, with the engine in a state. -/
structure Reached (o : Options) (label : String) (limit : Option Duration) (state : State)
    (s : Session Talker) : Prop where
  idle : Idle o label s
  limit_eq : s.client.defaultLimit = limit
  state_eq : s.peer.state = state
  hasWords : HasWords state

variable {pace : Pace} {o : Options} {label : String} {limit : Option Duration} {state : State}
  {s : Session Talker}

/-- **One request** brings what its command means, and takes the engine to the state after it. -/
theorem Reached.request (h : Reached o label limit state s) (ho : o.Answers) {q : Query}
    (hcommand : IsCommand q.command) (htime : InTime pace o limit q) :
    let (exchange, s₁) := Session.request pace.peer s q.command q.limit
    exchange.result = (answer o state q.command).said.mapError (.rejected label q.command) ∧
      exchange.diagnostics = (answer o state q.command).remarks ∧
      Reached o label limit (answer o state q.command).state s₁ := by
  obtain ⟨lines, hon, htells, hwords⟩ := onLine_answer ho h.hasWords hcommand
  have hlate : ∀ l, s.client.limitOf q.limit = some l →
      pace.late (answer o state q.command).think l = false := by
    intro l hl
    rw [Client.limitOf, h.limit_eq] at hl
    rcases @think_answerTo o state ((Text.words q.command.toList).headD [])
      (Text.words q.command.toList).tail with hzero | ⟨hgen, hthink⟩
    · rw [answer, hzero, Pace.late_zero]
    · obtain ⟨word, args, heq, -⟩ := hcommand.words
      rw [answer, hthink]
      refine htime ?_ l hl
      rw [heq] at hgen ⊢
      exact congrArg some hgen
  have hon : onLine o s.peer.state q.command.toList =
      (.lines (answer o state q.command).think lines, (answer o state q.command).state) := by
    rw [h.state_eq, hon]
  obtain ⟨hresult, hremarks, hlimit, hstate, hidle⟩ :=
    h.idle.request hon htells hcommand.isLine hlate
  exact ⟨hresult, hremarks, hidle, hlimit.trans h.limit_eq, hstate, hwords⟩

/-- **Any number of requests** takes the engine through all states. -/
theorem Reached.after {queries : List Query} (h : Reached o label limit state s) (ho : o.Answers)
    (hcommands : ∀ q ∈ queries, IsCommand q.command)
    (htime : ∀ q ∈ queries, InTime pace o limit q) :
    Reached o label limit (stateAfter o state (queries.map Query.command))
      (after pace.peer s queries) := by
  induction queries generalizing state s with
  | nil => exact h
  | cons q queries ih =>
    obtain ⟨hcommand, hcommands⟩ := List.forall_mem_cons.mp hcommands
    obtain ⟨hfirst, htime⟩ := List.forall_mem_cons.mp htime
    exact ih (h.request ho hcommand hfirst).2.2 hcommands htime

/-- **A scripted engine and its client stay in lock step.** Let commands be sent one by one to a new
engine that answers every command, each with enough time for the engine to think. Then each request
brings what its command means in the state after the commands before it, with the remarks that
belong to it, and leaves nothing to read. -/
theorem requests_answered (pace : Pace) (label : String) (limit : Option Duration) (o : Options)
    (queries : List Query) (ho : o.Answers) (hcommands : ∀ q ∈ queries, IsCommand q.command)
    (htime : ∀ q ∈ queries, InTime pace o limit q) (i : ℕ) (hi : i < queries.length) :
    let brought := Session.request pace.peer
      (after pace.peer (session label limit o) (queries.take i)) queries[i].command queries[i].limit
    let meant := answer o (stateAfter o {} ((queries.take i).map Query.command)) queries[i].command
    brought.1.result = meant.said.mapError (.rejected label queries[i].command) ∧
      brought.1.diagnostics = meant.remarks ∧ brought.2.client.inbox.queue = [] := by
  have hstart : Reached o label limit {} (session label limit o) :=
    ⟨idle_session label limit o, rfl, rfl, List.forall_mem_nil _⟩
  have hbefore := @Reached.after pace _ _ _ _ _ (queries.take i) hstart ho
    (fun q hq => hcommands q (List.mem_of_mem_take hq))
    fun q hq => htime q (List.mem_of_mem_take hq)
  obtain ⟨hresult, hremarks, hafter⟩ := hbefore.request ho
    (hcommands _ (List.getElem_mem hi)) (htime _ (List.getElem_mem hi))
  exact ⟨hresult, hremarks, hafter.idle.queue_eq⟩

/-- An engine that thinks for millions of years, talks, and declares a draw in its own words. -/
def pensive : Options where
  finishAfter := some 2
  winner := some "　draw by = agreement "
  thinkMs := 18446744073709551615
  chatter := true
  reject := some "?"

/-- What is asked of it. Only a `gen` needs time. -/
def questions : List Query := [⟨"play = a1", none⟩, ⟨"limit time total +7", some .zero⟩,
  ⟨"? x", none⟩, ⟨"gen", none⟩, ⟨"play b1", none⟩, ⟨"  history", none⟩]

theorem requests_answered_pensive :
    let brought (i : ℕ) (hi : i < questions.length) := (Session.request Pace.awaited.peer
      (after Pace.awaited.peer (session "engine" none pensive) (questions.take i))
      questions[i].command questions[i].limit).1
    (brought 2 (by decide)).result = .error (.rejected "engine" "? x" "? is not available") ∧
      (brought 3 (by decide)).result = .ok (some "b1") ∧
      (brought 3 (by decide)).diagnostics =
        ["info depth 1 nodes 2", "solution: pos=b1, total=7"] ∧
      (brought 4 (by decide)).result = .ok (some "draw by = agreement") ∧
      (brought 5 (by decide)).result = .ok (some "= b1") := by
  have hanswers : pensive.Answers := ⟨rfl, by rintro _ ⟨⟩; decide⟩
  have hcommands : ∀ q ∈ questions, IsCommand q.command := by decide
  have htime : ∀ q ∈ questions, InTime .awaited pensive none q := by
    have hgen : ∀ q ∈ questions, (Text.words q.command.toList).head? = some "gen".toList →
        q.limit = none := by decide
    intro q hq hword l hl
    rw [hgen q hq hword] at hl
    cases hl
  have hall := requests_answered .awaited "engine" none pensive questions hanswers hcommands htime
  exact ⟨(hall 2 (by decide)).1.trans rfl, (hall 3 (by decide)).1.trans rfl,
    (hall 3 (by decide)).2.1.trans (by decide), (hall 4 (by decide)).1.trans rfl,
    (hall 5 (by decide)).1.trans rfl⟩

/-- Without the time to think the two fall out of step. A client that waits for one second gets no move
from an engine that thinks for three, though the engine means one, and takes it for the reply to the
next command, which should have none. -/
theorem requests_outOfStep :
    let o : Options := { thinkMs := 3000 }
    let play : Query := ⟨"play a1", some (.ofMillis 5000)⟩
    let s := session "engine" (some (.ofMillis 1000)) o
    o.Answers ∧ IsCommand "gen" ∧ IsCommand play.command ∧
      (answer o {} "gen").said = .ok (some "a1") ∧
      (Session.request Pace.awaited.peer s "gen" none).1.result =
        .error (.timeout "engine" "gen" (.ofMillis 1000)) ∧
      (answer o (stateAfter o {} ["gen"]) play.command).said = .ok none ∧
      (Session.request Pace.awaited.peer (after Pace.awaited.peer s [⟨"gen", none⟩]) play.command
        play.limit).1.result = .ok (some "a1") := by
  refine ⟨⟨rfl, by rintro _ ⟨⟩⟩, by decide, by decide, rfl, ?_, rfl, ?_⟩
  · decide +kernel
  · decide +kernel

end EngineDuel.Scripted

import EngineDuel.Proofs.Game.Exchanges
import EngineDuel.Proofs.Wire.Answers
import EngineDuel.Proofs.Wire.Delivery

/-!
# The commands of a game as lines

In a game every engine hears the commands that it is asked, each ended by a line feed
(`Session.heard_eq`). If none has a line feed of its own, the engine reads one line for each request.

1. A command that tells a move is the only one that may have a line feed, and has those of the move
   (`GameCourse.lineFeed_mem`).
2. The moves that are told are those that were named, as they were named (`GameCourse.handsOn`).
3. A move that is empty or has a line feed was named by a stream (`Session.request_answer`).

So every request is one line and every move has a text exactly if the moves that were named do, and it
takes a stream to break this (`commands_are_lines`).
-/

namespace EngineDuel.Game

open EngineDuel.Wire

variable {α β : Type}

/-! ## Line feeds in commands -/

theorem lineFeed_notMem_nat (n : ℕ) : '\n' ∉ (toString n).toList :=
  fun h => (Text.not_lineEnd_of_mem_nat h).1 rfl

theorem toList_of_playToken? {command token : String} (h : playToken? command = some token) :
    command.toList = "play ".toList ++ token.toList := by
  unfold playToken? Text.dropPrefix? at h
  split at h
  · rename_i hprefix
    obtain ⟨rest, hrest⟩ := List.isPrefixOf_iff_prefix.mp hprefix
    rw [← hrest, List.drop_left, Option.map_some, Option.some.injEq] at h
    rw [← hrest, ← h]
    simp only [String.toList_ofList]
  · cases h

theorem TurnCommand.lineFeed_mem {command : String} (h : TurnCommand command)
    (hfeed : '\n' ∈ command.toList) : ∃ token, playToken? command = some token := by
  cases h with
  | gen => exact absurd hfeed (by decide)
  | play token => exact ⟨token, playToken?_play token⟩
  | time ms =>
    rw [String.toList_append, List.mem_append] at hfeed
    rcases hfeed with hfeed | hfeed
    · exact absurd hfeed (by decide)
    · exact absurd hfeed (lineFeed_notMem_nat _)

theorem lineFeed_notMem_limitTexts (s : ClockSettings) :
    ∀ command ∈ limitTexts s, '\n' ∉ command.toList := by
  intro command h
  simp only [limitTexts, List.mem_cons, List.not_mem_nil, or_false] at h
  rcases h with rfl | rfl | rfl <;>
    · rw [String.toList_append, List.mem_append, not_or]
      exact ⟨by decide, lineFeed_notMem_nat _⟩

/-! ## Moves that are handed on -/

/-- The moves that are told are those that were named, but for `none`. -/
structure HandsOn (rs : List Request) : Prop where
  named : ∀ r ∈ rs, ∀ token, playToken? r.command = some token →
    ∃ g ∈ rs, g.command = "gen" ∧ g.exchange.result = .ok (some token)
  told : ∀ g ∈ rs, g.command = "gen" → ∀ token, g.exchange.result = .ok (some token) →
    token ≠ "none" → ∃ r ∈ rs, playToken? r.command = some token

theorem HandsOn.append {rs more : List Request} (h : HandsOn rs) (h' : HandsOn more) :
    HandsOn (rs ++ more) where
  named := by
    intro r hr token htoken
    rcases List.mem_append.mp hr with hr | hr
    · obtain ⟨g, hg, hnamed⟩ := h.named r hr token htoken
      exact ⟨g, List.mem_append_left _ hg, hnamed⟩
    · obtain ⟨g, hg, hnamed⟩ := h'.named r hr token htoken
      exact ⟨g, List.mem_append_right _ hg, hnamed⟩
  told := by
    intro g hg hgen token htoken hne
    rcases List.mem_append.mp hg with hg | hg
    · obtain ⟨r, hr, htold⟩ := h.told g hg hgen token htoken hne
      exact ⟨r, List.mem_append_left _ hr, htold⟩
    · obtain ⟨r, hr, htold⟩ := h'.told g hg hgen token htoken hne
      exact ⟨r, List.mem_append_right _ hr, htold⟩

theorem handsOn_of_plain {rs : List Request}
    (h : ∀ r ∈ rs, r.command ≠ "gen" ∧ playToken? r.command = none) : HandsOn rs where
  named := by
    intro r hr token htoken
    rw [(h r hr).2] at htoken
    cases htoken
  told := fun g hg hgen => absurd hgen (h g hg).1

section Turns

variable {c : GameConfig} {seating : Seating} {n : ℕ} {clocks : ByPlayer Clock}
  {events : List Event}

/-- Once the mover has named a move, this move is told, and no other. -/
theorem MoveCourse.tells {token : String} {elapsed : UInt64} {r : Except GameError TurnEnd}
    (h : MoveCourse c seating n clocks token elapsed events r) :
    (∃ q ∈ requests events, playToken? q.command = some token) ∧
      ∀ q ∈ requests events, ∀ other, playToken? q.command = some other → other = token := by
  have hown : ∀ {p : Player} {x : Exchange} {more : List Request},
      (∀ q ∈ more, playToken? q.command = some token ∨ playToken? q.command = none) →
      (∃ q ∈ (⟨p, "play " ++ token, none, x⟩ : Request) :: more, playToken? q.command = some token) ∧
        ∀ q ∈ (⟨p, "play " ++ token, none, x⟩ : Request) :: more, ∀ other,
          playToken? q.command = some other → other = token := by
    intro p x more hmore
    have hfirst : playToken? ("play " ++ token) = some token := playToken?_play token
    refine ⟨⟨_, List.mem_cons_self, hfirst⟩, fun q hq other hother => ?_⟩
    rcases List.mem_cons.mp hq with rfl | hq
    · exact Option.some.inj (hother.symm.trans hfirst)
    · rcases hmore q hq with hq | hq
      · exact Option.some.inj (hother.symm.trans hq)
      · rw [hq] at hother
        cases hother
  have hplay : ∀ q : Request, q.command = "play " ++ token →
      playToken? q.command = some token ∨ playToken? q.command = none := by
    intro q hq
    rw [hq, playToken?_play]
    exact .inl rfl
  have htime : ∀ {p : Player} {limit : Option Duration} {x : Exchange} {text : String},
      playToken? (Request.mk p ("limit time total " ++ text) limit x).command = some token ∨
        playToken? (Request.mk p ("limit time total " ++ text) limit x).command = none :=
    .inr (plain_time _).2
  cases h with
  | ownFailed => exact hown (List.forall_mem_nil _)
  | othersFailed => exact hown (List.forall_mem_singleton.mpr (hplay _ rfl))
  | mismatch => exact hown (List.forall_mem_singleton.mpr (hplay _ rfl))
  | declared => exact hown (List.forall_mem_singleton.mpr (hplay _ rfl))
  | timeFailed =>
    exact hown (List.forall_mem_cons.mpr ⟨hplay _ rfl, List.forall_mem_singleton.mpr htime⟩)
  | lastTurn =>
    exact hown (List.forall_mem_cons.mpr ⟨hplay _ rfl, List.forall_mem_singleton.mpr htime⟩)
  | goOn =>
    exact hown (List.forall_mem_cons.mpr ⟨hplay _ rfl, List.forall_mem_singleton.mpr htime⟩)

/-- Nothing is handed on if no move is named. -/
theorem handsOn_gen {x : Exchange} (h : ∀ token, x.result = .ok (some token) → token = "none") :
    HandsOn [genRequest c seating n x] where
  named := by
    intro q hq token htoken
    rw [List.mem_singleton.mp hq] at htoken
    have hplain : playToken? "gen" = some token := htoken
    rw [playToken?_gen] at hplain
    cases hplain
  told := by
    intro g hg _ token htoken hne
    rw [List.mem_singleton.mp hg] at htoken
    exact absurd (h token htoken) hne

/-- A move is handed on if it is told after it was named, and no other. -/
theorem handsOn_told {x : Exchange} {token : String} {rs : List Request}
    (hx : x.result = .ok (some token)) (hgen : ∀ q ∈ rs, q.command ≠ "gen")
    (htold : ∃ q ∈ rs, playToken? q.command = some token)
    (hall : ∀ q ∈ rs, ∀ other, playToken? q.command = some other → other = token) :
    HandsOn (genRequest c seating n x :: rs) where
  named := by
    intro q hq other hother
    refine ⟨_, List.mem_cons_self, rfl, ?_⟩
    rcases List.mem_cons.mp hq with rfl | hq
    · have hplain : playToken? "gen" = some other := hother
      rw [playToken?_gen] at hplain
      cases hplain
    · rw [hall q hq other hother]
      exact hx
  told := by
    intro g hg hcommand other hother _
    obtain ⟨q, hq, htoken⟩ := htold
    refine ⟨q, List.mem_cons_of_mem _ hq, ?_⟩
    rcases List.mem_cons.mp hg with rfl | hg
    · have hsame : x.result = .ok (some other) := hother
      rw [hx] at hsame
      cases hsame
      exact htoken
    · exact absurd hcommand (hgen g hg)

/-- A turn hands on the move that the mover has named. -/
theorem TurnCourse.handsOn {r : Except GameError TurnEnd} (hb : Budgeted c clocks)
    (h : TurnCourse c seating n clocks events r) : HandsOn (requests events) := by
  cases h with
  | timeout hx =>
    rw [requests_append, requests_genEvents hb]
    refine handsOn_gen fun token htoken => ?_
    cases hx.symm.trans htoken
  | genFailed hx =>
    rw [requests_genEvents hb]
    refine handsOn_gen fun token htoken => ?_
    cases hx.symm.trans htoken
  | emptyMove hx =>
    rw [requests_genEvents hb]
    refine handsOn_gen fun token htoken => ?_
    cases hx.symm.trans htoken
  | noMove hx =>
    rw [requests_append, requests_genEvents hb]
    refine handsOn_gen fun token htoken => ?_
    cases hx.symm.trans htoken
    rfl
  | played hx _ hmove =>
    obtain ⟨htold, hall⟩ := hmove.tells
    rw [requests_append, requests_genEvents hb]
    exact handsOn_told hx hmove.ne_gen htold hall

theorem QuietTurns.handsOn {m : ℕ} {clocks' : ByPlayer Clock} (hb : Budgeted c clocks)
    (h : QuietTurns c seating n clocks events m clocks') : HandsOn (requests events) := by
  induction h with
  | none => exact handsOn_of_plain (List.forall_mem_nil _)
  | next hn hturn _ ih =>
    rw [requests_append]
    exact (hturn.handsOn hb).append (ih (hturn.quiet hb hn).2)

theorem TurnsCourse.handsOn {r : Except GameError Verdict} (hb : Budgeted c clocks)
    (h : TurnsCourse c seating n clocks events r) : HandsOn (requests events) := by
  cases h with
  | counterFull hq _ => exact hq.handsOn hb
  | failed hq _ hlast =>
    rw [requests_append]
    exact (hq.handsOn hb).append (hlast.handsOn (hq.inTurn hb).2)
  | ended hq _ hlast =>
    rw [requests_append]
    exact (hq.handsOn hb).append (hlast.handsOn (hq.inTurn hb).2)

/-- What a game asks outside of its turns. -/
def outerCommands (c : GameConfig) : List String :=
  limitTexts c.clocks.a ++ limitTexts c.clocks.b ++ ["history", "board"]

theorem plain_outerCommands (c : GameConfig) :
    ∀ command ∈ outerCommands c, command ≠ "gen" ∧ playToken? command = none := by
  intro command h
  rcases List.mem_append.mp h with h | h
  · rcases List.mem_append.mp h with h | h
    · exact plain_limitTexts _ _ h
    · exact plain_limitTexts _ _ h
  · exact plain_closing _ h

/-- The requests of a game are those of its turns, and some others before and after them. -/
theorem GameCourse.requests_eq {reader : List Event → Player} {r : Except GameError GameRecord}
    (h : GameCourse c seating reader events r) : ∃ before turns after,
      requests events = before ++ requests turns ++ after ∧
      (∀ q ∈ before ++ after, q.command ∈ outerCommands c) ∧
      (requests turns = [] ∨ ∃ rt, TurnsCourse c seating 0 (startClocks c) turns rt) := by
  have hlimits : ∀ {p : Player} {s : ClockSettings} {events : List Event}
      {r : Except GameError Unit}, AskCourse p (limitTexts s) events r →
      limitTexts s ⊆ outerCommands c → ∀ q ∈ requests events, q.command ∈ outerCommands c := by
    intro p s events r h hsub q hq
    obtain ⟨word, hword, hpre, -⟩ := h.prefix_asks
    exact hsub (hword.of_mem (hpre.subset hq)).2.1
  have ha : limitTexts c.clocks.a ⊆ outerCommands c := fun command h =>
    List.mem_append_left _ (List.mem_append_left _ h)
  have hb : limitTexts c.clocks.b ⊆ outerCommands c := fun command h =>
    List.mem_append_left _ (List.mem_append_right _ h)
  have hboth : ∀ {events events' : List Event} {r r' : Except GameError Unit},
      AskCourse .a (startClocks c).a.limitCommands events r →
      AskCourse .b (startClocks c).b.limitCommands events' r' →
      ∀ q ∈ requests (events ++ events'), q.command ∈ outerCommands c := by
    intro events events' r r' hla hlb q hq
    rcases List.mem_append.mp (requests_append _ _ ▸ hq) with hq | hq
    · exact hlimits hla ha q hq
    · exact hlimits hlb hb q hq
  have hclosing : ∀ {before closing : List Request}, (∀ q ∈ before, q.command ∈ outerCommands c) →
      (∀ q ∈ closing, q.command ∈ ["history", "board"]) →
      ∀ q ∈ before ++ closing, q.command ∈ outerCommands c := by
    intro before closing hbefore hclosing q hq
    rcases List.mem_append.mp hq with hq | hq
    · exact hbefore q hq
    · exact List.mem_append_right _ (hclosing q hq)
  cases h with
  | limitsFailed hla =>
    refine ⟨requests events, [], [], by simp [requests], ?_, .inl rfl⟩
    rw [List.append_nil]
    exact hlimits hla ha
  | @otherLimitsFailed ev ev' _ hla hlb =>
    refine ⟨requests (ev ++ ev'), [], [], by simp [requests], ?_, .inl rfl⟩
    rw [List.append_nil]
    exact hboth hla hlb
  | turnsFailed hla hlb ht =>
    refine ⟨_, _, [], by rw [requests_append, List.append_nil], ?_, .inr ⟨_, ht⟩⟩
    rw [List.append_nil]
    exact hboth hla hlb
  | historyFailed hla hlb ht _ =>
    refine ⟨_, _, _, by rw [requests_append, requests_append], ?_, .inr ⟨_, ht⟩⟩
    exact hclosing (hboth hla hlb) (by simp [requests, Event.request?])
  | boardFailed hla hlb ht _ _ =>
    refine ⟨_, _, _, by rw [requests_append, requests_append], ?_, .inr ⟨_, ht⟩⟩
    exact hclosing (hboth hla hlb) (by simp [requests, Event.request?])
  | recorded hla hlb ht _ _ =>
    refine ⟨_, _, _, by rw [requests_append, requests_append], ?_, .inr ⟨_, ht⟩⟩
    exact hclosing (hboth hla hlb) (by simp [requests, Event.request?])

theorem GameCourse.handsOn {reader : List Event → Player} {r : Except GameError GameRecord}
    (h : GameCourse c seating reader events r) : HandsOn (requests events) := by
  obtain ⟨before, turns, after, hrequests, houter, hturns⟩ := h.requests_eq
  have hplain : ∀ {rs : List Request}, (∀ q ∈ rs, q ∈ before ++ after) → HandsOn rs :=
    fun hrs => handsOn_of_plain fun q hq => plain_outerCommands c _ (houter q (hrs q hq))
  have hmiddle : HandsOn (requests turns) := by
    rcases hturns with hnone | ⟨rt, hturns⟩
    · rw [hnone]
      exact handsOn_of_plain (List.forall_mem_nil _)
    · exact hturns.handsOn (budgeted_startClocks c)
  rw [hrequests]
  exact ((hplain fun q => List.mem_append_left _).append hmiddle).append
    (hplain fun q => List.mem_append_right _)

/-- Only a command that tells a move may have a line feed. -/
theorem GameCourse.lineFeed_mem {reader : List Event → Player} {r : Except GameError GameRecord}
    (h : GameCourse c seating reader events r) : ∀ q ∈ requests events, '\n' ∈ q.command.toList →
      ∃ token, playToken? q.command = some token := by
  obtain ⟨before, turns, after, hrequests, houter, hturns⟩ := h.requests_eq
  intro q hq hfeed
  have hno : q ∉ before ++ after := by
    intro hq
    have hcommand := houter q hq
    rcases List.mem_append.mp hcommand with hcommand | hcommand
    · rcases List.mem_append.mp hcommand with hcommand | hcommand
      · exact lineFeed_notMem_limitTexts _ _ hcommand hfeed
      · exact lineFeed_notMem_limitTexts _ _ hcommand hfeed
    · have hnone : ∀ command ∈ ["history", "board"], '\n' ∉ command.toList := by decide
      exact hnone _ hcommand hfeed
  rw [List.mem_append, not_or] at hno
  rw [hrequests, List.mem_append, List.mem_append] at hq
  rcases hq with (hq | hq) | hq
  · exact absurd hq hno.1
  · rcases hturns with hnone | ⟨rt, hturns⟩
    · rw [hnone] at hq
      cases hq
    · exact (hturns.turnCommand (budgeted_startClocks c) q hq).lineFeed_mem hfeed
  · exact absurd hq hno.2

end Turns

/-! ## What the engines of a game hear -/

section Sessions

variable {σ τ : Type} {pa : Peer σ} {pb : Peer τ} {s : States (Session σ) (Session τ)}
  {events : List Event}

/-- The bytes that a player's engine hears in a game with these events. -/
def heardBy (pa : Peer σ) (pb : Peer τ) (s : States (Session σ) (Session τ)) (events : List Event) :
    Player → List UInt8
  | .a => Session.heard pa s.a (calls .a events)
  | .b => Session.heard pb s.b (calls .b events)

/-- The commands that a player's engine is sent. -/
def linesTo (p : Player) (rs : List Request) : List String := (commandsTo p rs).map Prod.fst

theorem commands_calls (p : Player) (events : List Event) :
    Session.commands (calls p events) = linesTo p (requests events) := by
  unfold linesTo commandsTo requests calls Session.commands
  rw [List.filterMap_filterMap, List.map_filterMap, List.filterMap_filterMap]
  congr 1
  funext e
  cases e with
  | request q label command limit x =>
    by_cases h : q = p <;> simp [Event.call?, Event.request?, h]
  | terminate q label => by_cases h : q = p <;> simp [Event.call?, Event.request?, h]
  | diagnostic => rfl
  | move => rfl
  | note => rfl

theorem mem_linesTo {p : Player} {rs : List Request} {line : String} :
    line ∈ linesTo p rs ↔ ∃ r ∈ rs, r.player = p ∧ r.command = line := by
  unfold linesTo commandsTo
  rw [List.map_filterMap, List.mem_filterMap]
  refine exists_congr fun r => and_congr_right fun _ => ?_
  by_cases h : r.player = p <;> simp [h]

/-- Every request to a player's engine is one line for it, and the moves that it is told have a text. -/
structure OneLineEach (p : Player) (rs : List Request) (heard : List UInt8) : Prop where
  lines_eq : (Text.byteLines heard).length = (linesTo p rs).length
  moves_ne : ∀ token ∈ playTokens p rs, token ≠ ""

/-- As many lines are read as commands were sent exactly if no command has a line feed. -/
theorem length_byteLines_eq_iff (lines : List String) :
    (Text.byteLines (lines.flatMap lineBytes)).length = lines.length ↔
      ∀ line ∈ lines, '\n' ∉ line.toList := by
  rw [length_byteLines_flatMap]
  have hcount : (lines.flatMap String.toList).count '\n' = 0 ↔ ∀ line ∈ lines, '\n' ∉ line.toList := by
    rw [List.count_eq_zero, List.mem_flatMap]
    simp only [not_exists, not_and]
  rw [← hcount]
  omega

theorem mem_playTokens {p : Player} {rs : List Request} {token : String} :
    token ∈ playTokens p rs ↔ ∃ r ∈ rs, r.player = p ∧ playToken? r.command = some token := by
  unfold playTokens
  rw [List.mem_filterMap]
  refine exists_congr fun r => and_congr_right fun _ => ?_
  by_cases h : r.player = p <;> simp [h]

/-- A move that was named. -/
def Named (rs : List Request) (token : String) : Prop :=
  ∃ g ∈ rs, g.command = "gen" ∧ g.exchange.result = .ok (some token)

/-- Every request is one line and every move has a text exactly if the moves that were named do. -/
theorem HandsOn.oneLineEach_iff {rs : List Request} (h : HandsOn rs)
    (hfeed : ∀ q ∈ rs, '\n' ∈ q.command.toList → ∃ token, playToken? q.command = some token) :
    (∀ p, OneLineEach p rs ((linesTo p rs).flatMap lineBytes)) ↔
      ∀ token, Named rs token → token ≠ "" ∧ '\n' ∉ token.toList := by
  constructor
  · rintro heach token ⟨g, hg, hgen, htoken⟩
    by_cases hnone : token = "none"
    · subst hnone
      decide
    · obtain ⟨r, hr, htold⟩ := h.told g hg hgen token htoken hnone
      obtain ⟨hlines, hmoves⟩ := heach r.player
      refine ⟨hmoves token (mem_playTokens.mpr ⟨r, hr, rfl, htold⟩), fun hmem => ?_⟩
      refine (length_byteLines_eq_iff _).mp hlines _ (mem_linesTo.mpr ⟨r, hr, rfl, rfl⟩) ?_
      rw [toList_of_playToken? htold]
      exact List.mem_append_right _ hmem
  · intro hnamed p
    constructor
    · rw [length_byteLines_eq_iff]
      intro line hline hmem
      obtain ⟨r, hr, -, rfl⟩ := mem_linesTo.mp hline
      obtain ⟨token, htold⟩ := hfeed r hr hmem
      have htoken := hnamed token (h.named r hr token htold)
      rw [toList_of_playToken? htold] at hmem
      rcases List.mem_append.mp hmem with hmem | hmem
      · exact absurd hmem (by decide)
      · exact htoken.2 hmem
    · intro token htoken
      obtain ⟨r, hr, -, htold⟩ := mem_playTokens.mp htoken
      exact (hnamed token (h.named r hr token htold)).1

/-- What an event does to sessions whose lines have no line feeds. -/
theorem lined_after (hpa : pa.Lined) (hpb : pb.Lined) (s : States (Session σ) (Session τ)) (e : Event)
    (h : s.a.Lined ∧ s.b.Lined) :
    let s' := Engines.after ⟨Session.engine pa, Session.engine pb⟩ s [e]
    s'.a.Lined ∧ s'.b.Lined := by
  have ha := Session.lined_afterCall hpa h.1
  have hb := Session.lined_afterCall hpb h.2
  cases e with
  | request q label command limit x =>
    cases q with
    | a => exact ⟨ha (.request command limit), h.2⟩
    | b => exact ⟨h.1, hb (.request command limit)⟩
  | terminate q label =>
    cases q with
    | a => exact ⟨ha .terminate, h.2⟩
    | b => exact ⟨h.1, hb .terminate⟩
  | diagnostic => exact h
  | move => exact h
  | note => exact h

/-- What the engines of a game hear, when it is one line for each request, and what breaks this. -/
structure CommandLines (pa : Peer σ) (pb : Peer τ) (s : States (Session σ) (Session τ))
    (events : List Event) : Prop where
  /-- Each engine hears its commands, each with a line feed, and nothing else. -/
  heard_eq : ∀ p, heardBy pa pb s events p = (linesTo p (requests events)).flatMap lineBytes
  /-- Every request is one line and every move has a text exactly if the moves that were named do. -/
  oneLineEach_iff : (∀ p, OneLineEach p (requests events) (heardBy pa pb s events p)) ↔
    ∀ token, Named (requests events) token → token ≠ "" ∧ '\n' ∉ token.toList
  /-- A move that is named on one line is such a move. -/
  streamed : ∀ g ∈ requests events, g.command = "gen" →
    ∀ token, g.exchange.result = .ok (some token) → ¬ Streamed g.exchange.log →
      token ≠ "" ∧ '\n' ∉ token.toList

/-- **The commands of a game.** -/
theorem commands_are_lines (pa : Peer σ) (pb : Peer τ) (s : States (Session σ) (Session τ))
    (seating : Seating) (c : GameConfig) (ha : s.a.client.Open) (hb : s.b.client.Open)
    (hpa : pa.Lined) (hpb : pb.Lined) (hsa : s.a.Lined) (hsb : s.b.Lined) :
    CommandLines pa pb s (play ⟨Session.engine pa, Session.engine pb⟩ s seating c).events := by
  have hcourse := play_course ⟨Session.engine pa, Session.engine pb⟩ s seating c
  have hlast := hcourse.stopsLast (Session.candid ha) (Session.candid hb)
  have hheard : ∀ p, heardBy pa pb s
      (play ⟨Session.engine pa, Session.engine pb⟩ s seating c).events p =
      (linesTo p (requests (play ⟨Session.engine pa, Session.engine pb⟩ s seating c).events)).flatMap
        lineBytes := by
    intro p
    rw [← commands_calls]
    cases p with
    | a => exact Session.heard_eq ha (hlast .a)
    | b => exact Session.heard_eq hb (hlast .b)
  refine ⟨hheard, ?_, ?_⟩
  · simp only [hheard]
    exact hcourse.handsOn.oneLineEach_iff hcourse.lineFeed_mem
  · intro g hg _ token htoken hplain
    obtain ⟨s', hlined, hexchange⟩ := (game_shown c seating).exists_state
      (I := fun s => s.a.Lined ∧ s.b.Lined) (lined_after hpa hpb) ⟨hsa, hsb⟩ hg
    obtain ⟨player, command, limit, x⟩ := g
    change x = _ at hexchange
    change x.result = _ at htoken
    change ¬ Streamed x.log at hplain
    rw [hexchange] at htoken hplain
    cases player with
    | a => exact (Session.request_answer hpa hlined.1 htoken).resolve_right hplain
    | b => exact (Session.request_answer hpb hlined.2 htoken).resolve_right hplain

end Sessions

/-- A client with an engine that writes these lines, whatever it is asked. -/
def reciting (label : String) (lines : List String) : Session Unit where
  client := { label, pipe := some { fault := "" }, inbox := { queue := lines.map .line, ended := true } }
  peer := ()

theorem open_reciting (label : String) (lines : List String) : (reciting label lines).client.Open :=
  ⟨_, rfl, rfl, rfl⟩

/-- A game of two such engines up to turn 2. -/
def recital (a b : List String) : Outcome (Session Unit) (Session Unit) :=
  play ⟨Session.engine deaf, Session.engine deaf⟩ ⟨reciting "a" a, reciting "b" b⟩ ⟨.black⟩
    { maxTurns := some 2 }

/-- Engines that name their moves on one line, and that show a board. -/
theorem commands_are_lines_recital :
    let a := ["=", "=", "=", "= a1", "=", "=", "=", "= a1 b1", "=\x02", "XO", "\x03"]
    let b := ["=", "=", "=", "=", "= b1", "=", "="]
    ∀ p, OneLineEach p (requests (recital a b).events)
      (heardBy deaf deaf ⟨reciting "a" a, reciting "b" b⟩ (recital a b).events p) := by
  intro a b
  have hlined : ∀ {label : String} {lines : List String}, (∀ line ∈ lines, '\n' ∉ line.toList) →
      (reciting label lines).Lined := by
    intro label lines hlines text htext
    obtain ⟨line, hline, heq⟩ := List.mem_map.mp htext
    cases heq
    exact hlines _ hline
  have hdeaf : deaf.Lined := fun _ _ _ => nofun
  have hmoves : (requests (recital a b).events).all (fun g =>
      g.command ≠ "gen" || g.exchange.result.toOption.join.all fun text =>
        text ≠ "" && !text.toList.contains '\n') = true := by decide +kernel
  refine (commands_are_lines deaf deaf ⟨reciting "a" a, reciting "b" b⟩ ⟨.black⟩
    { maxTurns := some 2 } (open_reciting _ _) (open_reciting _ _) hdeaf hdeaf
    (hlined (by decide)) (hlined (by decide))).oneLineEach_iff.mpr ?_
  rintro token ⟨g, hg, hgen, htoken⟩
  have hg := List.all_eq_true.mp hmoves g hg
  rw [htoken] at hg
  simpa [hgen, Except.toOption] using hg

/-- An engine that answers `gen` with an empty stream makes the referee tell a move without a text, and
one that answers it with a stream of two lines makes the referee send two lines for one request. -/
theorem moves_of_streams :
    let a := ["=", "=", "=", "=\x02\x03", "=", "=", "=", "=", "=", "="]
    let b := ["=", "=", "=", "=", "=\x02b2", "b3\x03", "=", "="]
    let events := (recital a b).events
    playTokens .a (requests events) = ["", "b2\nb3"] ∧
      (Text.byteLines (heardBy deaf deaf ⟨reciting "a" a, reciting "b" b⟩ events .a)).length ≠
        (linesTo .a (requests events)).length := by
  decide +kernel

end EngineDuel.Game

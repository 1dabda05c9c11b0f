import EngineDuel.Proofs.Game.Failures

/-!
# Engines that are stopped

The events of a game stop the players whose `gen` was not answered in time (`lates`), and these are at
most one. Nothing more is asked of them (`GameCourse.silent`): the turns end there, and the engine that
is asked for the history and the board has not been stopped (`reader_notMem_stops`).
-/

namespace EngineDuel.Game

variable {α β : Type}

/-! ## Who was late -/

/-- The players whose `gen` was not answered in time, in order. -/
def lates (rs : List Request) : List Player := (rs.filter Request.isLate).map (·.player)

theorem lates_append (before after : List Request) :
    lates (before ++ after) = lates before ++ lates after := by
  unfold lates
  rw [List.filter_append, List.map_append]

theorem lates_eq_nil {rs : List Request} (h : ∀ r ∈ rs, r.command ≠ "gen") : lates rs = [] := by
  have hfilter : rs.filter Request.isLate = [] := by
    refine List.filter_eq_nil_iff.mpr fun r hr hlate => ?_
    rw [isLate_of_ne (h r hr)] at hlate
    cases hlate
  unfold lates
  rw [hfilter, List.map_nil]

theorem mem_lates {rs : List Request} {r : Request} (hr : r ∈ rs) (hlate : r.isLate = true) :
    r.player ∈ lates rs :=
  List.mem_map_of_mem (List.mem_filter.mpr ⟨hr, hlate⟩)

section Lates

variable {c : GameConfig} {seating : Seating} {n : ℕ} {clocks : ByPlayer Clock}
  {events : List Event}

theorem AskCourse.lates_eq {p : Player} {commands : List String} {r : Except GameError Unit}
    (h : AskCourse p commands events r)
    (hplain : ∀ command ∈ commands, command ≠ "gen" ∧ playToken? command = none) :
    lates (requests events) = [] := by
  obtain ⟨word, hword, hpre, -⟩ := h.prefix_asks
  exact lates_eq_nil fun r hr => (hplain _ (hword.of_mem (hpre.subset hr)).2.1).1

/-- After the mover has named a move nobody is asked for one in that turn. -/
theorem MoveCourse.ne_gen {token : String} {elapsed : UInt64} {r : Except GameError TurnEnd}
    (h : MoveCourse c seating n clocks token elapsed events r) :
    ∀ r ∈ requests events, r.command ≠ "gen" := by
  have hplay : ∀ r : Request, r.command = "play " ++ token → r.command ≠ "gen" := by
    intro r hr
    rw [hr]
    exact play_ne_gen token
  have hplays : ∀ {l own l' others}, ∀ r ∈ requests (playEvents seating n token l own l' others),
      r.command ≠ "gen" := by
    intro l own l' others r hr
    rw [requests_playEvents, List.mem_append, List.mem_singleton, List.mem_singleton] at hr
    rcases hr with rfl | rfl <;> exact hplay _ rfl
  have hwhole : ∀ {l own l' others l'' time}, ∀ r ∈ requests
      (playEvents seating n token l own l' others ++
        [moveEvent seating n clocks token elapsed, timeEvent seating n clocks l'' time]),
      r.command ≠ "gen" := by
    intro l own l' others l'' time r hr
    rcases List.mem_append.mp (requests_append _ _ ▸ hr) with hr | hr
    · exact hplays r hr
    · rw [List.mem_singleton.mp hr]
      exact (plain_time _).1
  cases h with
  | ownFailed =>
    intro r hr
    rw [List.mem_singleton.mp hr]
    exact hplay _ rfl
  | othersFailed => exact hplays
  | mismatch => exact hplays
  | declared =>
    rw [requests_append, show requests [moveEvent seating n clocks token elapsed] = [] from rfl,
      List.append_nil]
    exact hplays
  | timeFailed => exact hwhole
  | lastTurn => exact hwhole
  | goOn => exact hwhole

/-- A turn stops the players who were late in it. -/
theorem TurnCourse.lates_eq {r : Except GameError TurnEnd} (hb : Budgeted c clocks)
    (h : TurnCourse c seating n clocks events r) : lates (requests events) = stops events := by
  have hstops := h.stops_eq
  have hgen : ∀ {x : Exchange},
      (∀ engine command limit, x.result ≠ .error (.timeout engine command limit)) →
      lates [genRequest c seating n x] = [] := by
    intro x hx
    simp [lates, isLate_genRequest hx]
  have hanswered : ∀ {x : Exchange} {reply}, x.result = .ok reply →
      lates [genRequest c seating n x] = [] := by
    intro x reply hx
    refine hgen fun engine command limit he => ?_
    rw [hx] at he
    cases he
  cases h with
  | timeout hx =>
    rw [hstops, requests_append, requests_genEvents hb]
    simp [lates, Request.isLate, genRequest, hx, requests, Event.request?]
  | genFailed hx hne =>
    rw [hstops, requests_genEvents hb]
    exact hgen fun engine command limit he =>
      hne engine command limit (Except.error.inj (hx.symm.trans he))
  | emptyMove hx =>
    rw [hstops, requests_genEvents hb]
    exact hanswered hx
  | noMove hx =>
    rw [hstops, requests_append, requests_genEvents hb]
    exact hanswered hx
  | @played _ _ line _ events _ hx _ hmove =>
    have hlates : lates (requests (.note line :: events)) = [] := lates_eq_nil hmove.ne_gen
    have hquiet : stops (.note line :: events) = [] := hmove.stops_eq
    rw [stops_append, stops_genEvents, hquiet, requests_append, requests_genEvents hb, lates_append,
      hlates, hanswered hx]

/-- Quiet turns stop nobody, and nobody is late in them. -/
theorem QuietTurns.lates_eq {m : ℕ} {clocks' : ByPlayer Clock} (hb : Budgeted c clocks)
    (h : QuietTurns c seating n clocks events m clocks') : lates (requests events) = [] := by
  induction h with
  | none => rfl
  | next hn hturn _ ih =>
    rw [requests_append, lates_append, hturn.lates_eq hb, hturn.stops_eq,
      ih (hturn.quiet hb hn).2]
    rfl

/-- The turns of a game stop the players who were late in them, and these are at most one. -/
theorem TurnsCourse.lates_eq {r : Except GameError Verdict} (hb : Budgeted c clocks)
    (h : TurnsCourse c seating n clocks events r) :
    lates (requests events) = stops events ∧ (stops events).length ≤ 1 := by
  cases h with
  | counterFull hq _ =>
    rw [hq.lates_eq hb, hq.stops_eq]
    exact ⟨rfl, Nat.zero_le _⟩
  | failed hq _ hlast =>
    rw [requests_append, lates_append, hq.lates_eq hb, hlast.lates_eq (hq.inTurn hb).2,
      stops_append, hq.stops_eq, hlast.stops_eq]
    exact ⟨rfl, Nat.zero_le _⟩
  | @ended _ _ _ _ _ termination _ hq _ hlast =>
    rw [requests_append, lates_append, hq.lates_eq hb, hlast.lates_eq (hq.inTurn hb).2,
      stops_append, hq.stops_eq, hlast.stops_eq]
    refine ⟨rfl, ?_⟩
    cases termination <;> simp

end Lates

/-! ## Silence -/

/-- After a `gen` that was not answered in time nothing is asked of that player. -/
def SilentAfterLate (rs : List Request) : Prop :=
  rs.Pairwise fun r later => r.isLate = true → later.player ≠ r.player

section Silence

variable {c : GameConfig} {seating : Seating} {n : ℕ} {clocks : ByPlayer Clock}
  {events : List Event}

theorem silent_append_of_lates {rs rs' : List Request} (h : lates rs = [])
    (h' : SilentAfterLate rs') : SilentAfterLate (rs ++ rs') := by
  have hnone : ∀ r ∈ rs, ¬ r.isLate = true := by
    intro r hr hlate
    have hmem := mem_lates hr hlate
    rw [h] at hmem
    cases hmem
  have hall : rs.Pairwise fun _ _ => True := List.pairwise_of_forall fun _ _ => trivial
  have hrs : SilentAfterLate rs :=
    hall.imp_of_mem fun hr _ _ hlate => absurd hlate (hnone _ hr)
  exact List.pairwise_append.mpr ⟨hrs, h', fun r hr _ _ hlate => absurd hlate (hnone r hr)⟩

theorem silent_of_lates {rs : List Request} (h : lates rs = []) : SilentAfterLate rs := by
  rw [← List.append_nil rs]
  exact silent_append_of_lates h .nil

/-- What is asked of someone who was not late. -/
theorem SilentAfterLate.append {rs rs' : List Request} (h : SilentAfterLate rs) {reader : Player}
    (hreader : reader ∉ lates rs)
    (hplain : ∀ r ∈ rs', r.player = reader ∧ r.command ≠ "gen") : SilentAfterLate (rs ++ rs') := by
  refine List.pairwise_append.mpr ⟨h, silent_of_lates (lates_eq_nil fun r hr => (hplain r hr).2), ?_⟩
  intro r hr r' hr' hlate heq
  rw [(hplain r' hr').1] at heq
  rw [heq] at hreader
  exact hreader (mem_lates hr hlate)

theorem TurnCourse.silent {r : Except GameError TurnEnd} (hb : Budgeted c clocks)
    (h : TurnCourse c seating n clocks events r) : SilentAfterLate (requests events) := by
  have hlates := h.lates_eq hb
  have hstops := h.stops_eq
  cases h with
  | timeout hx =>
    rw [requests_append, requests_genEvents hb]
    exact List.pairwise_singleton _ _
  | genFailed => exact silent_of_lates (hlates.trans hstops)
  | emptyMove => exact silent_of_lates (hlates.trans hstops)
  | noMove => exact silent_of_lates (hlates.trans hstops)
  | @played _ _ line _ events _ _ _ hmove =>
    have hquiet : stops (.note line :: events) = [] := hmove.stops_eq
    refine silent_of_lates (hlates.trans ?_)
    rw [stops_append, stops_genEvents, hquiet]
    rfl

theorem TurnsCourse.silent {r : Except GameError Verdict} (hb : Budgeted c clocks)
    (h : TurnsCourse c seating n clocks events r) : SilentAfterLate (requests events) := by
  cases h with
  | counterFull hq _ => exact silent_of_lates (hq.lates_eq hb)
  | failed hq _ hlast =>
    rw [requests_append]
    exact silent_append_of_lates (hq.lates_eq hb) (hlast.silent (hq.inTurn hb).2)
  | ended hq _ hlast =>
    rw [requests_append]
    exact silent_append_of_lates (hq.lates_eq hb) (hlast.silent (hq.inTurn hb).2)

/-- Who is asked at the end has not been stopped, if at most one has been. -/
theorem reader_notMem_stops {engines : Engines α β} {s : States α β} (ha : engines.a.Candid s.a)
    (hb : engines.b.Candid s.b) (h : (stops events).length ≤ 1) :
    engines.reader s events ∉ stops events := by
  have hstopped := @isTerminated_after_iff α β engines .a s ha hb events
  unfold Engines.reader
  by_cases hmem : Player.a ∈ stops events
  · rw [if_pos (hstopped.mpr hmem)]
    intro hmem'
    obtain ⟨p, hp⟩ := List.length_eq_one_iff.mp
      (Nat.le_antisymm h (List.length_pos_of_mem hmem))
    rw [hp, List.mem_singleton] at hmem hmem'
    rw [← hmem] at hmem'
    cases hmem'
  · rwa [if_neg fun h => hmem (hstopped.mp h)]

/-- A game stops the players who were late, at most one, and asks nothing more of them. -/
theorem GameCourse.silent {engines : Engines α β} {s : States α β} {r : Except GameError GameRecord}
    (ha : engines.a.Candid s.a) (hb : engines.b.Candid s.b)
    (h : GameCourse c seating (engines.reader s) events r) :
    SilentAfterLate (requests events) ∧ lates (requests events) = stops events ∧
      (stops events).length ≤ 1 := by
  have hlimits : ∀ {p s events} {r : Except GameError Unit}, AskCourse p (limitTexts s) events r →
      lates (requests events) = [] ∧ stops events = [] :=
    fun h => ⟨h.lates_eq (plain_limitTexts _), h.stops_eq⟩
  -- the limits and the turns
  have hturns : ∀ {events events' turns : List Event} {r' : Except GameError Verdict},
      AskCourse .a (startClocks c).a.limitCommands events (.ok ()) →
      AskCourse .b (startClocks c).b.limitCommands events' (.ok ()) →
      TurnsCourse c seating 0 (startClocks c) turns r' →
      SilentAfterLate (requests (events ++ events' ++ turns)) ∧
        lates (requests (events ++ events' ++ turns)) = stops (events ++ events' ++ turns) ∧
        (stops (events ++ events' ++ turns)).length ≤ 1 := by
    intro events events' turns r' hla hlb ht
    obtain ⟨hnone, hstops⟩ := hlimits hla
    obtain ⟨hnone', hstops'⟩ := hlimits hlb
    obtain ⟨hlates, hlength⟩ := ht.lates_eq (budgeted_startClocks c)
    have hfront : lates (requests events ++ requests events') = [] := by
      rw [lates_append, hnone, hnone']
      rfl
    simp only [requests_append, stops_append, lates_append _ (requests turns), hfront, hstops,
      hstops', List.nil_append]
    exact ⟨silent_append_of_lates hfront (ht.silent (budgeted_startClocks c)), hlates, hlength⟩
  -- the questions at the end
  have hclosing : ∀ {events closing : List Event}, SilentAfterLate (requests events) →
      lates (requests events) = stops events → (stops events).length ≤ 1 →
      (∀ r ∈ requests closing, r.player = engines.reader s events ∧ r.command ≠ "gen") →
      stops closing = [] → SilentAfterLate (requests (events ++ closing)) ∧
        lates (requests (events ++ closing)) = stops (events ++ closing) ∧
        (stops (events ++ closing)).length ≤ 1 := by
    intro events closing hsilent hlates hlength hplain hnone
    have hreader := reader_notMem_stops ha hb hlength
    rw [← hlates] at hreader
    rw [requests_append, lates_append, lates_eq_nil fun r hr => (hplain r hr).2, List.append_nil,
      stops_append, hnone, List.append_nil]
    exact ⟨hsilent.append hreader hplain, hlates, hlength⟩
  have hhistory : "history" ≠ "gen" := by decide
  have hboth : ∀ (reader : Player) (history board : Exchange), ∀ r ∈
      [(⟨reader, "history", none, history⟩ : Request), ⟨reader, "board", none, board⟩],
      r.player = reader ∧ r.command ≠ "gen" := by
    intro reader history board r hr
    rcases List.mem_cons.mp hr with rfl | hr
    · exact ⟨rfl, hhistory⟩
    · rw [List.mem_singleton.mp hr]
      exact ⟨rfl, (by decide : "board" ≠ "gen")⟩
  cases h with
  | limitsFailed hla =>
    obtain ⟨hnone, hstops⟩ := hlimits hla
    rw [hstops, hnone]
    exact ⟨silent_of_lates hnone, rfl, Nat.zero_le _⟩
  | otherLimitsFailed hla hlb =>
    obtain ⟨hnone, hstops⟩ := hlimits hla
    obtain ⟨hnone', hstops'⟩ := hlimits hlb
    rw [requests_append, lates_append, stops_append, hnone, hnone', hstops, hstops']
    refine ⟨silent_append_of_lates hnone (silent_of_lates hnone'), rfl, Nat.zero_le _⟩
  | turnsFailed hla hlb ht => exact hturns hla hlb ht
  | historyFailed hla hlb ht _ =>
    obtain ⟨hsilent, hlates, hlength⟩ := hturns hla hlb ht
    refine hclosing hsilent hlates hlength (fun r hr => ?_) rfl
    rw [List.mem_singleton.mp hr]
    exact ⟨rfl, hhistory⟩
  | boardFailed hla hlb ht _ _ =>
    obtain ⟨hsilent, hlates, hlength⟩ := hturns hla hlb ht
    exact hclosing hsilent hlates hlength (hboth _ _ _) rfl
  | recorded hla hlb ht _ _ =>
    obtain ⟨hsilent, hlates, hlength⟩ := hturns hla hlb ht
    exact hclosing hsilent hlates hlength (hboth _ _ _) rfl

end Silence

end EngineDuel.Game

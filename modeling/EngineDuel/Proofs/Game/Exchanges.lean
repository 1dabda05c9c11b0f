import EngineDuel.Proofs.Game.Silence

/-!
# The events and the engines

What a game shows of its engines is what they did. Each request brings what the engine answers in the
state that it has come to (`Shown`), as every part of a game shows it (`game_shown`); so what holds of
the engines' states all the time holds of the state behind every exchange (`Shown.exists_state`).

A player's engine that is stopped is not called any more (`GameCourse.stopsLast`): stopping it is the
last of its calls.
-/

namespace EngineDuel.Game

variable {α β τ υ : Type}

/-! ## Exchanges -/

section Exchanges

variable {engines : Engines α β} {s : States α β} {events : List Event}

/-- What an event shows of a request is what the engine brought in these states. -/
def Event.Shows (engines : Engines α β) (s : States α β) : Event → Prop
  | .request p _ command limit x => x = (engines.request s p command limit).1
  | _ => True

/-- Each exchange that the events show is what the engine brought in the state it then had. -/
def Shown (engines : Engines α β) : States α β → List Event → Prop
  | _, [] => True
  | s, e :: rest => e.Shows engines s ∧ Shown engines (engines.after s [e]) rest

theorem shown_append {more : List Event} (h : Shown engines s events)
    (h' : Shown engines (engines.after s events) more) : Shown engines s (events ++ more) := by
  induction events generalizing s with
  | nil => exact h'
  | cons e rest ih =>
    refine ⟨h.1, ih h.2 ?_⟩
    rw [← after_append]
    exact h'

/-- Events that show no request. -/
theorem shown_of_forall (h : ∀ e ∈ events, ∀ s, e.Shows engines s) : Shown engines s events := by
  induction events generalizing s with
  | nil => exact trivial
  | cons e rest ih =>
    exact ⟨h e List.mem_cons_self s, ih fun e' he' => h e' (List.mem_cons_of_mem _ he')⟩

/-- Behind every exchange there is a state of the engines with any property that the calls of a game
keep. -/
theorem Shown.exists_state {I : States α β → Prop} (hkeep : ∀ s e, I s → I (engines.after s [e]))
    (hs : I s) (h : Shown engines s events) {r : Request} (hr : r ∈ requests events) :
    ∃ s', I s' ∧ r.exchange = (engines.request s' r.player r.command r.limit).1 := by
  induction events generalizing s with
  | nil => cases hr
  | cons e rest ih =>
    have hrest := ih (hkeep s e hs) h.2
    cases e with
    | request p label command limit x =>
      rw [requests_request] at hr
      rcases List.mem_cons.mp hr with rfl | hr
      · exact ⟨s, hs, h.1⟩
      · exact hrest hr
    | diagnostic => exact hrest hr
    | move => exact hrest hr
    | terminate => exact hrest hr
    | note => exact hrest hr

/-- A part whose events show what the engines did, and what becomes of them. -/
def Part.IsShown (engines : Engines α β) (p : Part α β τ) : Prop :=
  p.Tracks engines ∧ ∀ ⦃s events r s'⦄, p.Brings s events r s' → Shown engines s events

theorem Part.IsShown.bind {p : Part α β τ} {f : τ → Part α β υ} (hp : p.IsShown engines)
    (hf : ∀ x, (f x).IsShown engines) : (p >>= f).IsShown engines := by
  refine ⟨tracks_bind hp.1 fun x => (hf x).1, fun s events r s' h => ?_⟩
  rcases Part.Brings.of_bind h with ⟨e, he, -⟩ | ⟨x, s₁, before, rest, hx, h₂, rfl⟩
  · exact hp.2 he
  · refine shown_append (hp.2 hx) ?_
    rw [← hp.1 hx]
    exact (hf x).2 h₂

theorem isShown_pure (x : τ) : (pure x : Part α β τ).IsShown engines := by
  refine ⟨tracks_pure x, fun s events r s' h => ?_⟩
  cases h
  exact trivial

theorem isShown_fail (e : GameError) : (Part.fail e : Part α β τ).IsShown engines := by
  refine ⟨tracks_fail e, fun s events r s' h => ?_⟩
  cases h
  exact trivial

theorem isShown_emit_note (line : LogLine) :
    (Part.emit (.note line) : Part α β Unit).IsShown engines := by
  refine ⟨tracks_emit_note line, fun s events r s' h => ?_⟩
  cases h
  exact ⟨trivial, trivial⟩

theorem isShown_emit_move (m : Move) : (Part.emit (.move m) : Part α β Unit).IsShown engines := by
  refine ⟨tracks_emit_move m, fun s events r s' h => ?_⟩
  cases h
  exact ⟨trivial, trivial⟩

theorem isShown_labelOf (p : Player) : (engines.labelOf p).IsShown engines := by
  refine ⟨tracks_labelOf p, fun s events r s' h => ?_⟩
  cases h
  exact trivial

theorem isShown_survivor : (engines.survivor).IsShown engines := by
  constructor <;>
  · intro s events r s' h
    cases h
    trivial

theorem isShown_passOn (c : GameConfig) (p : Player) (lines : List String) :
    (passOn c p lines : Part α β Unit).IsShown engines := by
  refine ⟨tracks_passOn c p lines, fun s events r s' h => ?_⟩
  cases h
  apply shown_of_forall
  intro e he s
  obtain ⟨line, -, rfl⟩ := List.mem_map.mp he
  trivial

theorem isShown_stop (p : Player) : (engines.stop p).IsShown engines := by
  refine ⟨tracks_stop p, fun s events r s' h => ?_⟩
  cases h
  exact ⟨trivial, trivial⟩

theorem isShown_ask (p : Player) (command : String) (limit : Option Duration) :
    (engines.ask p command limit).IsShown engines := by
  refine ⟨tracks_ask p command limit, fun s events r s' h => ?_⟩
  cases h
  exact ⟨rfl, trivial⟩

theorem isShown_require (p : Player) (command : String) :
    (engines.require p command).IsShown engines := by
  refine (isShown_ask p command none).bind fun x => ?_
  split
  · exact isShown_pure _
  · exact isShown_fail _

theorem isShown_requireAll (p : Player) (commands : List String) :
    (engines.requireAll p commands).IsShown engines := by
  induction commands with
  | nil => exact isShown_pure ()
  | cons command rest ih => exact (isShown_require p command).bind fun _ => ih

theorem isShown_playMove (c : GameConfig) (seating : Seating) (turn : UInt32) (color : Color)
    (clocks : ByPlayer Clock) (token : String) (elapsed : UInt64) :
    (playMove engines c seating turn color clocks token elapsed).IsShown engines := by
  unfold playMove
  refine (isShown_require _ _).bind fun own => (isShown_require _ _).bind fun others => ?_
  split
  · exact (isShown_labelOf _).bind fun _ => (isShown_labelOf _).bind fun _ => isShown_fail _
  · refine (isShown_emit_move _).bind fun _ => ?_
    split
    · exact isShown_pure _
    · refine (isShown_require _ _).bind fun _ => ?_
      split <;> exact isShown_pure _

theorem isShown_playTurn (c : GameConfig) (seating : Seating) (turn : UInt32) (color : Color)
    (clocks : ByPlayer Clock) : (playTurn engines c seating turn color clocks).IsShown engines := by
  unfold playTurn
  refine (isShown_ask _ _ _).bind fun x => (isShown_passOn _ _ _).bind fun _ => ?_
  split
  · exact (isShown_stop _).bind fun _ => isShown_pure _
  · exact isShown_fail _
  · exact (isShown_labelOf _).bind fun _ => isShown_fail _
  · refine (isShown_labelOf _).bind fun _ => (isShown_emit_note _).bind fun _ => ?_
    split
    · exact isShown_pure _
    · exact isShown_playMove _ _ _ _ _ _ _

theorem isShown_playTurns (c : GameConfig) (seating : Seating) (left : ℕ) (turn : UInt32)
    (color : Color) (clocks : ByPlayer Clock) :
    (playTurns engines c seating left turn color clocks).IsShown engines := by
  induction left generalizing turn color clocks with
  | zero => exact isShown_fail _
  | succ left ih =>
    unfold playTurns
    refine (isShown_playTurn _ _ _ _ _).bind fun ending => ?_
    obtain ⟨winner, termination, clocks'⟩ | clocks' := ending
    · exact isShown_pure _
    · exact ih _ _ _

/-- **The events of a game show what the engines did.** -/
theorem game_shown (c : GameConfig) (seating : Seating) :
    Shown engines s (play engines s seating c).events := by
  have hgame : (game engines c seating).IsShown engines := by
    refine (isShown_requireAll _ _).bind fun _ => (isShown_requireAll _ _).bind fun _ => ?_
    refine (isShown_playTurns _ _ _ _ _ _).bind fun v => isShown_survivor.bind fun reader => ?_
    refine (isShown_require _ _).bind fun history => (isShown_require _ _).bind fun board => ?_
    exact isShown_pure _
  exact hgame.2 (play_brings engines s seating c)

end Exchanges

/-! ## The last call -/

/-- Stopping an engine is the last of its calls. -/
def StopsLast (events : List Event) : Prop :=
  ∀ p, (calls p events).Pairwise fun call _ => call ≠ .terminate

section StopsLast

variable {c : GameConfig} {seating : Seating} {n : ℕ} {clocks : ByPlayer Clock}
  {events more : List Event}

theorem calls_append (p : Player) (events more : List Event) :
    calls p (events ++ more) = calls p events ++ calls p more :=
  List.filterMap_append

/-- More events after some that stop nobody. -/
theorem StopsLast.after (h : StopsLast more) (hnone : stops events = []) :
    StopsLast (events ++ more) := by
  intro p
  have hne : ∀ call ∈ calls p events, call ≠ .terminate := by
    rintro call hcall rfl
    rw [terminate_mem_calls_iff, hnone] at hcall
    cases hcall
  have hall : (calls p events).Pairwise fun _ _ => True :=
    List.pairwise_of_forall fun _ _ => trivial
  rw [calls_append]
  refine List.pairwise_append.mpr ⟨hall.imp_of_mem fun hcall _ _ => hne _ hcall, h p, ?_⟩
  intro call hcall _ _
  exact hne call hcall

theorem stopsLast_of_stops (hnone : stops events = []) : StopsLast events := by
  rw [← List.append_nil events]
  exact StopsLast.after (fun p => .nil) hnone

/-- Requests to those who have not been stopped. -/
theorem StopsLast.append (h : StopsLast events) (hnone : stops more = [])
    (hasked : ∀ r ∈ requests more, r.player ∉ stops events) : StopsLast (events ++ more) := by
  intro p
  rw [calls_append]
  refine List.pairwise_append.mpr ⟨h p, stopsLast_of_stops hnone p, ?_⟩
  rintro call hcall later hlater rfl
  obtain ⟨e, he, hcall?⟩ := List.mem_filterMap.mp hlater
  cases e with
  | request q label command limit x =>
    have hrequest : (⟨q, command, limit, x⟩ : Request) ∈ requests more :=
      List.mem_filterMap.mpr ⟨_, he, rfl⟩
    by_cases hq : q = p
    · subst hq
      exact hasked _ hrequest (terminate_mem_calls_iff.mp hcall)
    · simp [Event.call?, hq] at hcall?
  | terminate q label =>
    have hstop : q ∈ stops more := List.mem_filterMap.mpr ⟨_, he, rfl⟩
    rw [hnone] at hstop
    cases hstop
  | diagnostic => cases hcall?
  | move => cases hcall?
  | note => cases hcall?

theorem TurnCourse.stopsLast {r : Except GameError TurnEnd}
    (h : TurnCourse c seating n clocks events r) : StopsLast events := by
  have hstops := h.stops_eq
  cases h with
  | timeout =>
    refine StopsLast.after (fun p => ?_) (stops_genEvents _ _)
    by_cases hp : mover seating n = p <;> simp [calls, Event.call?, hp]
  | genFailed => exact stopsLast_of_stops hstops
  | emptyMove => exact stopsLast_of_stops hstops
  | noMove => exact stopsLast_of_stops hstops
  | @played _ _ line _ _ _ _ _ hmove =>
    have hquiet : stops (.note line :: _) = [] := hmove.stops_eq
    refine stopsLast_of_stops ?_
    rw [stops_append, stops_genEvents, hquiet]
    rfl

theorem TurnsCourse.stopsLast {r : Except GameError Verdict}
    (h : TurnsCourse c seating n clocks events r) : StopsLast events := by
  cases h with
  | counterFull hq _ => exact stopsLast_of_stops hq.stops_eq
  | failed hq _ hlast => exact hlast.stopsLast.after hq.stops_eq
  | ended hq _ hlast => exact hlast.stopsLast.after hq.stops_eq

/-- **An engine that is stopped is not called any more.** -/
theorem GameCourse.stopsLast {engines : Engines α β} {s : States α β}
    {r : Except GameError GameRecord} (ha : engines.a.Candid s.a) (hb : engines.b.Candid s.b)
    (h : GameCourse c seating (engines.reader s) events r) : StopsLast events := by
  have hlength := (h.silent ha hb).2.2
  have hlimits : ∀ {events events' : List Event} {r r' : Except GameError Unit},
      AskCourse .a (startClocks c).a.limitCommands events r →
      AskCourse .b (startClocks c).b.limitCommands events' r' → stops (events ++ events') = [] := by
    intro events events' r r' hla hlb
    rw [stops_append, hla.stops_eq, hlb.stops_eq]
    rfl
  -- the questions at the end
  have hclosing : ∀ {events closing : List Event}, StopsLast events → stops closing = [] →
      (stops (events ++ closing)).length ≤ 1 →
      (∀ r ∈ requests closing, r.player = engines.reader s events) →
      StopsLast (events ++ closing) := by
    intro events closing hlast hnone hlength hreader
    rw [stops_append, hnone, List.append_nil] at hlength
    refine hlast.append hnone fun r hr => ?_
    rw [hreader r hr]
    exact reader_notMem_stops ha hb hlength
  cases h with
  | limitsFailed hla => exact stopsLast_of_stops hla.stops_eq
  | otherLimitsFailed hla hlb => exact stopsLast_of_stops (hlimits hla hlb)
  | turnsFailed hla hlb ht => exact ht.stopsLast.after (hlimits hla hlb)
  | historyFailed hla hlb ht _ =>
    refine hclosing (ht.stopsLast.after (hlimits hla hlb)) rfl hlength fun r hr => ?_
    rw [List.mem_singleton.mp hr]
  | boardFailed hla hlb ht _ _ =>
    refine hclosing (ht.stopsLast.after (hlimits hla hlb)) rfl hlength fun r hr => ?_
    rcases List.mem_cons.mp hr with rfl | hr
    · rfl
    · rw [List.mem_singleton.mp hr]
  | recorded hla hlb ht _ _ =>
    refine hclosing (ht.stopsLast.after (hlimits hla hlb)) rfl hlength fun r hr => ?_
    rcases List.mem_cons.mp hr with rfl | hr
    · rfl
    · rw [List.mem_singleton.mp hr]

end StopsLast

end EngineDuel.Game

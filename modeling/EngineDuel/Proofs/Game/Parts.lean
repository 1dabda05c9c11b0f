import EngineDuel.Game.Play
import EngineDuel.Game.Rehearsed
import Mathlib.Tactic.SplitIfs

/-!
# What the parts of a game bring

`Part.Brings p s events result s'` says that the part `p`, started with the engines in `s`, ends in
`result` with the engines in `s'` and with `events` on the way. A part that is made of two brings
what the first brings, followed by what the second brings unless the first fails (`of_bind`); from
this each request, note and failure of a game is peeled off by one lemma.

The events show everything that is done to the engines: after a part that `Tracks` the engines their
states are those after the calls that its events show (`Engines.after`). An engine is `Candid` if it
reports to be stopped exactly when it has been stopped, so the events tell that too
(`isTerminated_after_iff`).
-/

namespace EngineDuel

/-! ## Calls -/

/-- Something that the referee does to an engine. -/
inductive Call where
  | request (command : String) (limit : Option Duration)
  | terminate
  deriving DecidableEq, Repr

namespace Engine

variable {σ : Type}

/-- The state of an engine after a call. -/
def afterCall (e : Engine σ) (s : σ) : Call → σ
  | .request command limit => (e.request s command limit).2
  | .terminate => e.terminate s

/-- From the state `s` on, the engine reports to be stopped exactly if it has been stopped. -/
def Candid (e : Engine σ) (s : σ) : Prop :=
  ∀ calls : List Call, e.isTerminated (calls.foldl e.afterCall s) = true ↔ .terminate ∈ calls

/-- An engine is candid if only stopping it changes what it reports, and for good. -/
theorem candid_of {e : Engine σ} {s : σ}
    (hrequest : ∀ s command limit,
      e.isTerminated (e.request s command limit).2 = e.isTerminated s)
    (hterminate : ∀ s, e.isTerminated (e.terminate s) = true) (hs : e.isTerminated s = false) :
    e.Candid s := by
  have key : ∀ (calls : List Call) (s : σ), e.isTerminated (calls.foldl e.afterCall s) = true ↔
      e.isTerminated s = true ∨ .terminate ∈ calls := by
    intro calls
    induction calls with
    | nil => intro s; simp
    | cons call calls ih =>
      intro s
      rw [List.foldl_cons, ih]
      cases call with
      | request command limit => simp [afterCall, hrequest]
      | terminate => simp [afterCall, hterminate]
  intro calls
  rw [key, hs]
  simp

end Engine

namespace Game

theorem Rehearsed.next_terminated (r : Rehearsed) (command : List Char) :
    (r.next command).2.terminated = r.terminated := by
  unfold Rehearsed.next
  dsimp only
  split_ifs <;> rfl

/-- Rehearsed engines report truthfully whether they were stopped. -/
theorem Rehearsed.candid {r : Rehearsed} (h : r.terminated = false) : Rehearsed.engine.Candid r := by
  refine Engine.candid_of (fun r command limit => ?_) (fun _ => rfl) h
  show (r.request command limit).2.terminated = r.terminated
  unfold Rehearsed.request
  by_cases ht : r.terminated = true
  · rw [if_pos ht]
  · rw [if_neg ht]; exact r.next_terminated _

variable {α β τ υ : Type}

/-! ## What a part brings -/

/-- From `s` the part ends in `result` and `s'`, with `events` on the way. -/
def Part.Brings (p : Part α β τ) (s : States α β) (events : List Event)
    (result : Except GameError τ) (s' : States α β) : Prop :=
  p.run s = (result, s', events)

namespace Part.Brings

variable {s s' : States α β} {events : List Event} {p : Part α β τ} {f : τ → Part α β υ}

/-- From the same states a part brings the same. -/
theorem unique {s₁ s₂ : States α β} {events' : List Event} {x y : Except GameError τ}
    (h : p.Brings s events x s₁) (h' : p.Brings s events' y s₂) :
    events' = events ∧ y = x ∧ s₂ = s₁ := by
  have heq := h.symm.trans h'
  simp only [Prod.mk.injEq] at heq
  exact ⟨heq.2.2.symm, heq.1.symm, heq.2.1.symm⟩

theorem of_pure {x : τ} {r : Except GameError τ}
    (h : (pure x : Part α β τ).Brings s events r s') : events = [] ∧ r = .ok x ∧ s' = s := by
  cases h
  exact ⟨rfl, rfl, rfl⟩

theorem of_fail {e : GameError} {r : Except GameError τ}
    (h : (Part.fail e : Part α β τ).Brings s events r s') :
    events = [] ∧ r = .error e ∧ s' = s := by
  cases h
  exact ⟨rfl, rfl, rfl⟩

/-- One part after another: the first fails, or the second goes on with its value. -/
theorem of_bind {r : Except GameError υ} (h : (p >>= f).Brings s events r s') :
    (∃ e, p.Brings s events (.error e) s' ∧ r = .error e) ∨
      ∃ x s₁ before after, p.Brings s before (.ok x) s₁ ∧ (f x).Brings s₁ after r s' ∧
        events = before ++ after := by
  change (Part.andThen p f).run s = _ at h
  unfold Part.andThen at h
  rcases hp : p.run s with ⟨_ | x, s₁, before⟩
  · simp only [hp] at h
    cases h
    exact .inl ⟨_, hp, rfl⟩
  · simp only [hp] at h
    cases h
    exact .inr ⟨x, s₁, before, _, hp, rfl, rfl⟩

/-- One part after another, if the first does not fail. -/
theorem bind {x : τ} {s₁ : States α β} {before after : List Event} {r : Except GameError υ}
    (hp : p.Brings s before (.ok x) s₁) (hf : (f x).Brings s₁ after r s') :
    (p >>= f).Brings s (before ++ after) r s' := by
  change (Part.andThen p f).run s = _
  change p.run s = _ at hp
  change (f x).run s₁ = _ at hf
  unfold Part.andThen
  simp only [hp, hf]

/-- One part after another, if the first fails. -/
theorem bind_error {e : GameError} (hp : p.Brings s events (.error e) s') :
    (p >>= f).Brings s events (.error e) s' := by
  change (Part.andThen p f).run s = _
  change p.run s = _ at hp
  unfold Part.andThen
  simp only [hp]

/-- A first part that computes a value and never fails. -/
theorem of_step {g : States α β → τ} {next : States α β → States α β}
    {ev : States α β → List Event} {r : Except GameError υ}
    (h : ((⟨fun s => (.ok (g s), next s, ev s)⟩ : Part α β τ) >>= f).Brings s events r s') :
    ∃ rest, (f (g s)).Brings (next s) rest r s' ∧ events = ev s ++ rest := by
  rcases of_bind h with ⟨e, he, -⟩ | ⟨x, s₁, before, after, hx, hf, rfl⟩
  · cases he
  · cases hx
    exact ⟨after, hf, rfl⟩

end Part.Brings

/-! ## Requests -/

section Requests

namespace Part.Brings

variable {engines : Engines α β} {p : Player} {command : String} {s s' : States α β}
  {events : List Event} {r : Except GameError υ}

theorem of_emit {e : Event} {f : Unit → Part α β υ}
    (h : (Part.emit e >>= f).Brings s events r s') :
    ∃ rest, (f ()).Brings s rest r s' ∧ events = e :: rest :=
  of_step h

theorem of_passOn {c : GameConfig} {lines : List String} {f : Unit → Part α β υ}
    (h : (passOn c p lines >>= f).Brings s events r s') :
    ∃ rest, (f ()).Brings s rest r s' ∧
      events = (lines.filter c.echoes).map (.diagnostic p) ++ rest :=
  of_step h

theorem of_labelOf {f : String → Part α β υ}
    (h : (engines.labelOf p >>= f).Brings s events r s') :
    (f (engines.label s p)).Brings s events r s' := by
  obtain ⟨rest, hf, rfl⟩ := of_step h
  exact hf

theorem of_survivor {f : Player → Part α β υ}
    (h : (engines.survivor >>= f).Brings s events r s') :
    (f (if engines.isTerminated s .a then .b else .a)).Brings s events r s' := by
  obtain ⟨rest, hf, rfl⟩ := of_step h
  exact hf

theorem of_stop {f : Unit → Part α β υ} (h : (engines.stop p >>= f).Brings s events r s') :
    ∃ rest, (f ()).Brings (engines.terminate s p) rest r s' ∧
      events = .terminate p (engines.label s p) :: rest :=
  of_step h

/-- A request whatever comes of it. -/
theorem of_ask {limit : Option Duration} {f : Exchange → Part α β υ}
    (h : (engines.ask p command limit >>= f).Brings s events r s') :
    ∃ rest, (f (engines.request s p command limit).1).Brings
        (engines.request s p command limit).2 rest r s' ∧
      events = .request p (engines.label s p) command limit
        (engines.request s p command limit).1 :: rest :=
  of_step h

/-- A request that has to succeed: it fails and nothing follows, or it is answered. -/
theorem of_require {f : Option String → Part α β υ}
    (h : (engines.require p command >>= f).Brings s events r s') :
    ∃ label x, (∃ e, x.result = .error e ∧ r = .error (.link e) ∧
        events = [.request p label command none x]) ∨
      ∃ answer s₁ rest, x.result = .ok answer ∧ (f answer).Brings s₁ rest r s' ∧
        events = .request p label command none x :: rest := by
  refine ⟨engines.label s p, (engines.request s p command none).1, ?_⟩
  rcases of_bind h with ⟨e, hp, rfl⟩ | ⟨answer, s₁, before, after, hp, hf, rfl⟩
  · obtain ⟨rest, hx, rfl⟩ := of_ask hp
    cases hr : (engines.request s p command none).1.result with
    | error e' =>
      simp only [hr] at hx
      obtain ⟨rfl, he, -⟩ := of_fail hx
      cases he
      exact .inl ⟨_, rfl, rfl, rfl⟩
    | ok answer =>
      simp only [hr] at hx
      cases (of_pure hx).2.1
  · obtain ⟨rest, hx, rfl⟩ := of_ask hp
    cases hr : (engines.request s p command none).1.result with
    | error e' =>
      simp only [hr] at hx
      cases (of_fail hx).2.1
    | ok answer' =>
      simp only [hr] at hx
      obtain ⟨rfl, ha, -⟩ := of_pure hx
      cases ha
      exact .inr ⟨answer, s₁, after, rfl, hf, rfl⟩

end Part.Brings

end Requests

/-! ## The states of the engines -/

/-- What an event does to the engine of a player. -/
def Event.call? (p : Player) : Event → Option Call
  | .request q _ command limit _ => if q = p then some (.request command limit) else none
  | .terminate q _ => if q = p then some .terminate else none
  | _ => none

/-- The calls of a player's engine that the events show. -/
def calls (p : Player) (events : List Event) : List Call := events.filterMap (Event.call? p)

/-- The player whose engine an event stops. -/
def Event.stop? : Event → Option Player
  | .terminate p _ => some p
  | _ => none

/-- The players whose engines the events stop, in order. -/
def stops (events : List Event) : List Player := events.filterMap Event.stop?

/-- The states of the engines after the calls that the events show. -/
def Engines.after (engines : Engines α β) (s : States α β) (events : List Event) : States α β :=
  ⟨(calls .a events).foldl engines.a.afterCall s.a, (calls .b events).foldl engines.b.afterCall s.b⟩

section Tracks

variable {engines : Engines α β} {p : Player} {s : States α β}

theorem after_append (before after : List Event) :
    engines.after s (before ++ after) = engines.after (engines.after s before) after := by
  simp only [Engines.after, calls, List.filterMap_append, List.foldl_append]

theorem call?_eq_terminate_iff {e : Event} :
    e.call? p = some .terminate ↔ e.stop? = some p := by
  cases e <;> simp [Event.call?, Event.stop?]

theorem terminate_mem_calls_iff {events : List Event} :
    .terminate ∈ calls p events ↔ p ∈ stops events := by
  simp only [calls, stops, List.mem_filterMap, call?_eq_terminate_iff]

/-- A candid engine reports to be stopped exactly if the events say so. -/
theorem isTerminated_after_iff (ha : engines.a.Candid s.a) (hb : engines.b.Candid s.b)
    (events : List Event) :
    engines.isTerminated (engines.after s events) p = true ↔ p ∈ stops events := by
  rw [← terminate_mem_calls_iff]
  cases p
  · exact ha _
  · exact hb _

/-- The states after a part are those after the calls that its events show. -/
def Part.Tracks (engines : Engines α β) (p : Part α β τ) : Prop :=
  ∀ ⦃s events r s'⦄, p.Brings s events r s' → s' = engines.after s events

theorem tracks_pure (x : τ) : (pure x : Part α β τ).Tracks engines := by
  intro s events r s' h
  obtain ⟨rfl, -, rfl⟩ := Part.Brings.of_pure h
  rfl

theorem tracks_fail (e : GameError) : (Part.fail e : Part α β τ).Tracks engines := by
  intro s events r s' h
  obtain ⟨rfl, -, rfl⟩ := Part.Brings.of_fail h
  rfl

theorem tracks_bind {p : Part α β τ} {f : τ → Part α β υ} (hp : p.Tracks engines)
    (hf : ∀ x, (f x).Tracks engines) : (p >>= f).Tracks engines := by
  intro s events r s' h
  rcases Part.Brings.of_bind h with ⟨e, he, -⟩ | ⟨x, s₁, before, rest, hx, h₂, rfl⟩
  · exact hp he
  · rw [after_append, ← hp hx]
    exact hf x h₂

theorem tracks_emit_note (line : LogLine) :
    (Part.emit (.note line) : Part α β Unit).Tracks engines := by
  intro s events r s' h; cases h; rfl

theorem tracks_emit_move (m : Move) : (Part.emit (.move m) : Part α β Unit).Tracks engines := by
  intro s events r s' h; cases h; rfl

theorem tracks_labelOf (p : Player) : (engines.labelOf p).Tracks engines := by
  intro s events r s' h; cases h; rfl

theorem tracks_passOn (c : GameConfig) (p : Player) (lines : List String) :
    (passOn c p lines : Part α β Unit).Tracks engines := by
  intro s events r s' h
  have hnone : ∀ q, calls q ((lines.filter c.echoes).map (.diagnostic p)) = [] := by
    intro q
    simp only [calls, List.filterMap_map, List.filterMap_eq_nil_iff]
    intro line _
    rfl
  cases h
  simp only [Engines.after, hnone, List.foldl_nil]

theorem tracks_stop (p : Player) : (engines.stop p).Tracks engines := by
  intro s events r s' h; cases h; cases p <;> rfl

theorem tracks_ask (p : Player) (command : String) (limit : Option Duration) :
    (engines.ask p command limit).Tracks engines := by
  intro s events r s' h; cases h; cases p <;> rfl

theorem tracks_require (p : Player) (command : String) :
    (engines.require p command).Tracks engines := by
  refine tracks_bind (tracks_ask p command none) fun x => ?_
  split
  · exact tracks_pure _
  · exact tracks_fail _

theorem tracks_requireAll (p : Player) (commands : List String) :
    (engines.requireAll p commands).Tracks engines := by
  induction commands with
  | nil => exact tracks_pure ()
  | cons command rest ih => exact tracks_bind (tracks_require p command) fun _ => ih

end Tracks

/-! ## What a part comes to -/

/-- From `s` the part ends in `result` and `s'`, whatever happens on the way. -/
def Part.Ends (p : Part α β τ) (s : States α β) (result : Except GameError τ)
    (s' : States α β) : Prop :=
  ∃ events, p.Brings s events result s'

section Ends

variable {engines : Engines α β} {s s₁ s' : States α β} {p : Part α β τ} {f : τ → Part α β υ}
  {r : Except GameError υ}

theorem Part.Ends.bind {x : τ} (hp : p.Ends s (.ok x) s₁) (hf : (f x).Ends s₁ r s') :
    (p >>= f).Ends s r s' := by
  obtain ⟨before, hp⟩ := hp
  obtain ⟨after, hf⟩ := hf
  exact ⟨_, hp.bind hf⟩

theorem Part.Ends.bind_error {e : GameError} (hp : p.Ends s (.error e) s') :
    (p >>= f).Ends s (.error e) s' := by
  obtain ⟨events, hp⟩ := hp
  exact ⟨events, hp.bind_error⟩

theorem ends_pure (x : τ) : (pure x : Part α β τ).Ends s (.ok x) s := ⟨_, rfl⟩

theorem ends_fail (e : GameError) : (Part.fail e : Part α β τ).Ends s (.error e) s := ⟨_, rfl⟩

theorem ends_emit (e : Event) : (Part.emit e : Part α β Unit).Ends s (.ok ()) s := ⟨_, rfl⟩

theorem ends_labelOf (p : Player) : (engines.labelOf p).Ends s (.ok (engines.label s p)) s := ⟨_, rfl⟩

theorem ends_passOn (c : GameConfig) (p : Player) (lines : List String) :
    (passOn c p lines : Part α β Unit).Ends s (.ok ()) s := ⟨_, rfl⟩

theorem ends_survivor :
    engines.survivor.Ends s (.ok (if engines.isTerminated s .a then .b else .a)) s := ⟨_, rfl⟩

theorem ends_stop (p : Player) : (engines.stop p).Ends s (.ok ()) (engines.terminate s p) := ⟨_, rfl⟩

theorem ends_ask (p : Player) (command : String) (limit : Option Duration) :
    (engines.ask p command limit).Ends s (.ok (engines.request s p command limit).1)
      (engines.request s p command limit).2 := ⟨_, rfl⟩

/-- A request that succeeds. -/
theorem ends_require {p : Player} {command : String} {answer : Option String}
    (h : (engines.request s p command none).1.result = .ok answer) :
    (engines.require p command).Ends s (.ok answer) (engines.request s p command none).2 := by
  refine (ends_ask p command none).bind ?_
  simp only [h]
  exact ends_pure answer

end Ends

end Game

end EngineDuel

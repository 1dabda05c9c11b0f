import EngineDuel.Proofs.Game.Requests
import EngineDuel.Proofs.Scripted.Sessions

/-!
# Two scripted engines in step

Between two turns both engines of a game have seen the same moves (`InSync`). Whatever the referee
asks one of them keeps both in step (`InSync.require`): the limits, the moves, and what is asked at
the end, which needs one engine in step only (`Readable`).
-/

namespace EngineDuel.Scripted

open EngineDuel.Game EngineDuel.Wire

/-- Two scripted engines. -/
abbrev duel (pace : Pace) : Engines (Session Talker) (Session Talker) :=
  ⟨Session.engine pace.peer, Session.engine pace.peer⟩

/-- The session of a player. -/
def seat (s : States (Session Talker) (Session Talker)) : Player → Session Talker
  | .a => s.a
  | .b => s.b

/-- Each engine is in step with its client, after so many moves. -/
def InSync (o : ByPlayer Options) (labels : ByPlayer String) (count : ByPlayer ℕ)
    (s : States (Session Talker) (Session Talker)) : Prop :=
  ∀ p, InStep (o.get p) (labels.get p) (count.get p) (seat s p)

/-- The engine that is asked at the end is in step, after so many moves. -/
def Readable (o : ByPlayer Options) (labels : ByPlayer String) (count : ℕ)
    (s : States (Session Talker) (Session Talker)) : Prop :=
  let reader : Player := if s.a.client.isClosed then .b else .a
  InStep (o.get reader) (labels.get reader) count (seat s reader)

section Duel

variable {pace : Pace} {o : ByPlayer Options} {labels : ByPlayer String} {count : ByPlayer ℕ}
  {n : ℕ} {q : Player} {s : States (Session Talker) (Session Talker)} {command : String}

theorem request_duel (s : States (Session Talker) (Session Talker)) (p : Player) (command : String)
    (limit : Option Duration) :
    ((duel pace).request s p command limit).1 =
        (Session.request pace.peer (seat s p) command limit).1 ∧
      seat ((duel pace).request s p command limit).2 p =
        (Session.request pace.peer (seat s p) command limit).2 ∧
      seat ((duel pace).request s p command limit).2 p.other = seat s p.other := by
  cases p <;> exact ⟨rfl, rfl, rfl⟩

theorem InSync.label_eq (h : InSync o labels count s) (p : Player) :
    (duel pace).label s p = labels.get p := by
  rw [← (h p).label_eq]
  cases p <;> rfl

theorem InSync.moves_eq (h : InSync o labels ⟨n, n⟩ s) (p : Player) :
    (seat s p).peer.state.moves = placed n := by
  cases p with
  | a => exact (h .a).moves_eq
  | b => exact (h .b).moves_eq

/-- An engine answers a command about which it does not think within any limit. -/
theorem require_inStep {own : Options} {label : String} {m : ℕ}
    (h : InStep own label n (seat s q)) {said : Option String} {state : State}
    (hreacts : Reacts own (seat s q).peer.state command .zero said state)
    (hmoves : state.moves = placed m) (hline : IsLine command) :
    ∃ s', ((duel pace).require q command).Ends s (.ok said) s' ∧ InStep own label m (seat s' q) ∧
      seat s' q.other = seat s q.other := by
  have htime : ∀ l, (seat s q).client.limitOf none = some l → pace.late .zero l = false :=
    fun l _ => pace.late_zero l
  obtain ⟨hresult, hown, hother⟩ := @request_duel pace s q command none
  obtain ⟨hsaid, hstep⟩ := h.request hreacts hmoves hline htime
  refine ⟨_, ends_require (hresult ▸ hsaid), ?_, hother⟩
  rw [hown]
  exact hstep

/-- Both are in step again after a request to one of them. -/
theorem InSync.of_seats {s' : States (Session Talker) (Session Talker)} {m : ℕ}
    (h : InSync o labels count s) (hown : InStep (o.get q) (labels.get q) m (seat s' q))
    (hother : seat s' q.other = seat s q.other) : InSync o labels (count.set q m) s' := by
  intro p
  by_cases hp : p = q
  · subst hp
    rw [ByPlayer.get_set]
    exact hown
  · rw [Player.eq_other_of_ne hp, ByPlayer.get_set_other, hother]
    exact h q.other

/-- A request to one engine keeps both in step. -/
theorem InSync.require (h : InSync o labels count s) {said : Option String} {state : State} {m : ℕ}
    (hreacts : Reacts (o.get q) (seat s q).peer.state command .zero said state)
    (hmoves : state.moves = placed m) (hline : IsLine command) :
    ∃ s', ((duel pace).require q command).Ends s (.ok said) s' ∧
      InSync o labels (count.set q m) s' := by
  obtain ⟨s', hends, hown, hother⟩ := require_inStep (h q) hreacts hmoves hline
  exact ⟨s', hends, h.of_seats hown hother⟩

theorem set_get_self (count : ByPlayer ℕ) (q : Player) : count.set q (count.get q) = count := by
  cases q <;> rfl

/-! ## The commands of a game -/

/-- A start of a command that tells a limit. -/
def IsLimitStart (start : String) : Prop :=
  start ∈ ["limit time total ", "limit time increment ", "limit time turn "]

theorem IsLimitStart.isLine {start : String} (h : IsLimitStart start) (n : ℕ) :
    IsLine (start ++ toString n) := by
  have hplain : '\n' ∉ start.toList ∧ '\r' ∉ start.toList := by
    unfold IsLimitStart at h
    revert start
    decide
  unfold IsLine
  rw [String.toList_append, List.mem_append, List.mem_append, not_or, not_or]
  exact ⟨⟨hplain.1, fun h => (Text.not_lineEnd_of_mem_nat h).1 rfl⟩, hplain.2,
    fun h => (Text.not_lineEnd_of_mem_nat h).2 rfl⟩

theorem IsLimitStart.command_eq {start : String} (h : IsLimitStart start) (n : ℕ) :
    ∃ rest, (start ++ toString n).toList = "limit".toList ++ ' ' :: rest := by
  have hrest : ∃ rest, start.toList = "limit".toList ++ ' ' :: rest := by
    simp only [IsLimitStart, List.mem_cons, List.not_mem_nil, or_false] at h
    rcases h with rfl | rfl | rfl <;> exact ⟨_, rfl⟩
  obtain ⟨rest, hrest⟩ := hrest
  exact ⟨rest ++ (toString n).toList, by rw [String.toList_append, hrest, List.append_assoc]; rfl⟩

/-- Telling a limit changes nothing but the time that the engine knows of. -/
theorem InSync.require_limit (h : InSync o labels count s) (ho : (o.get q).Plain) {start : String}
    (hstart : IsLimitStart start) (n : ℕ) :
    ∃ s', ((duel pace).require q (start ++ toString n)).Ends s (.ok none) s' ∧
      InSync o labels count s' := by
  obtain ⟨rest, hrest⟩ := hstart.command_eq n
  obtain ⟨totalMs, hreacts⟩ := @reacts_limit _ (seat s q).peer.state _ ho _ hrest
  obtain ⟨s', hends, hsync⟩ := h.require hreacts (h q).moves_eq (hstart.isLine n)
  rw [set_get_self] at hsync
  exact ⟨s', hends, hsync⟩

theorem InSync.requireAll_limits (h : InSync o labels count s) (ho : (o.get q).Plain) (pace : Pace)
    (clock : Clock) :
    ∃ s', ((duel pace).requireAll q clock.limitCommands).Ends s (.ok ()) s' ∧
      InSync o labels count s' := by
  have htotal : IsLimitStart "limit time total " := .head _
  have hincrement : IsLimitStart "limit time increment " := .tail _ (.head _)
  have hturn : IsLimitStart "limit time turn " := .tail _ (.tail _ (.head _))
  obtain ⟨s₁, hends₁, h₁⟩ := h.require_limit ho htotal clock.remaining.toNat
  obtain ⟨s₂, hends₂, h₂⟩ := h₁.require_limit ho hincrement clock.increment.toNat
  obtain ⟨s₃, hends₃, h₃⟩ := h₂.require_limit ho hturn clock.turnBudget.toNat
  exact ⟨s₃, hends₁.bind (hends₂.bind (hends₃.bind (ends_pure ()))), h₃⟩

theorem isLine_play (n : ℕ) : IsLine ("play " ++ String.ofList (coordinate n)) := by
  have hplain : ∀ c ∈ coordinate n, Text.isBlank c = false :=
    fun c hc => (plain_coordinate n c hc).1
  unfold IsLine
  simp only [String.toList_append, String.toList_ofList, List.mem_append, not_or]
  refine ⟨⟨by decide, fun h => ?_⟩, by decide, fun h => ?_⟩
  · cases hplain _ h
  · cases hplain _ h

/-- Both engines are told the next move, in either order. -/
theorem InSync.require_plays (h : InSync o labels ⟨n, n⟩ s) (ho : ∀ p, (o.get p).Plain)
    (q : Player) :
    ∃ s₁ s₂, ((duel pace).require q ("play " ++ String.ofList (coordinate n))).Ends s
        (.ok (declared? (o.get q) (n + 1))) s₁ ∧
      ((duel pace).require q.other ("play " ++ String.ofList (coordinate n))).Ends s₁
        (.ok (declared? (o.get q.other) (n + 1))) s₂ ∧
      InSync o labels ⟨n + 1, n + 1⟩ s₂ := by
  obtain ⟨s₁, hown, h₁⟩ := h.require (reacts_play (ho q) (h.moves_eq q)) rfl (isLine_play n)
  have hother : (seat s₁ q.other).peer.state.moves = placed n := by
    rw [(h₁ q.other).moves_eq, ByPlayer.get_set_other]
    cases q <;> rfl
  obtain ⟨s₂, hothers, h₂⟩ := h₁.require (reacts_play (ho q.other) hother) rfl (isLine_play n)
  refine ⟨s₁, s₂, hown, hothers, ?_⟩
  cases q <;> exact h₂

/-- Both engines in step can be asked at the end. -/
theorem InSync.readable (h : InSync o labels ⟨n, n⟩ s) : Readable o labels n s := by
  obtain ⟨pipe, hpipe, -⟩ := (h .a).isOpen
  have hpipe : s.a.client.pipe = some pipe := hpipe
  have hrunning : s.a.client.isClosed = false := by simp [Client.isClosed, hpipe]
  unfold Readable
  rw [hrunning]
  exact h .a

/-- An engine can be asked at the end when the other one has been stopped. -/
theorem readable_terminate (h : InStep (o.get q.other) (labels.get q.other) n (seat s q.other)) :
    Readable o labels n ((duel pace).terminate s q) := by
  unfold Readable
  cases q with
  | a =>
    have hclosed : ((duel pace).terminate s .a).a.client.isClosed = true :=
      Session.isClosed_close s.a
    rw [hclosed]
    exact h
  | b =>
    obtain ⟨pipe, hpipe, -⟩ := h.isOpen
    have hpipe : s.a.client.pipe = some pipe := hpipe
    have hrunning : ((duel pace).terminate s .b).a.client.isClosed = false := by
      show s.a.client.isClosed = false
      simp [Client.isClosed, hpipe]
    rw [hrunning]
    exact h

/-! ## Asking for a move -/

/-- An engine that is in time names its next move. -/
theorem InSync.request_gen (h : InSync o labels ⟨n, n⟩ s) (ho : (o.get q).Plain) {limit : Duration}
    (hstall : (o.get q).stallAt ≠ some n) (htime : pace.late (thinking (o.get q) n) limit = false) :
    ((duel pace).request s q "gen" (some limit)).1.result = .ok (some (ownMove (o.get q) n)) ∧
      InSync o labels ⟨n, n⟩ ((duel pace).request s q "gen" (some limit)).2 := by
  have hlength : (seat s q).peer.state.moves.length = n := by rw [h.moves_eq, length_placed]
  have hreacts := @reacts_gen _ (seat s q).peer.state ho (by rwa [hlength])
  rw [hlength] at hreacts
  have hline : IsLine "gen" := by
    unfold IsLine
    decide
  have hlimit : ∀ l, (seat s q).client.limitOf (some limit) = some l →
      pace.late (thinking (o.get q) n) l = false := by
    rintro l ⟨⟩
    exact htime
  obtain ⟨hresult, hown, hother⟩ := @request_duel pace s q "gen" (some limit)
  obtain ⟨hsaid, hstep⟩ := (h q).request hreacts (h.moves_eq q) hline hlimit
  rw [← hown] at hstep
  refine ⟨hresult ▸ hsaid, ?_⟩
  cases q <;> exact h.of_seats hstep hother

/-- If an engine does not name a move in time, the other one can be asked at the end. -/
theorem InSync.request_gen_timeout (h : InSync o labels ⟨n, n⟩ s) (ho : (o.get q).Plain)
    {limit : Duration}
    (hslow : (o.get q).stallAt = some n ∨ pace.late (thinking (o.get q) n) limit = true) :
    ((duel pace).request s q "gen" (some limit)).1.result =
        .error (.timeout (labels.get q) "gen" limit) ∧
      Readable o labels n
        ((duel pace).terminate ((duel pace).request s q "gen" (some limit)).2 q) := by
  have hstep : InStep (o.get q) (labels.get q) n (seat s q) := by cases q <;> exact h _
  have hstep' : InStep (o.get q.other) (labels.get q.other) n (seat s q.other) := by
    cases q <;> exact h _
  obtain ⟨hresult, -, hother⟩ := @request_duel pace s q "gen" (some limit)
  rw [hresult]
  refine ⟨hstep.request_timeout ho hslow, readable_terminate ?_⟩
  rw [hother]
  exact hstep'

end Duel

end EngineDuel.Scripted

import EngineDuel.Proofs.Game.ClockAccounts
import EngineDuel.Proofs.Game.Exchanges
import EngineDuel.Proofs.Game.ToldMoves
import EngineDuel.Proofs.Wire.Remarks

/-!
# The remarks that a game passes on

`remarks_routed`: of all lines of the engines a game passes on those, as remarks of the mover, that a
`gen` takes before its reply and that begin with one of the prefixes of the rules. Which prefixes
these are makes no other difference.

1. Of the requests of a game, those for a move pass on what they show, whatever comes of them, and no
   others (`GameCourse.passesOn`).
2. The mover of each turn is asked for a move once, turn by turn (`GameCourse.movers_eq`).
3. What a request shows are the remarks among the lines that it takes, in the state to which the
   engine has come (`passedOn_hearings`).
4. With other prefixes each part of a game brings the same besides the remarks
   (`Part.SameBesides`), so the game does (`sameBesides_game`).
-/

namespace EngineDuel.Game

variable {α β τ υ : Type}

/-! ## Remarks that are passed on -/

/-- The remark that an event passes on, and whose it is said to be. -/
def Event.diagnostic? : Event → Option (Player × String)
  | .diagnostic p line => some (p, line)
  | _ => none

/-- The remarks that events pass on, in order. -/
def diagnostics (events : List Event) : List (Player × String) := events.filterMap Event.diagnostic?

/-- A line begins with one of these prefixes, or there are none. -/
def Passes (prefixes : List String) (line : String) : Prop :=
  prefixes = [] ∨ ∃ start ∈ prefixes, start.toList <+: line.toList

instance (prefixes : List String) : DecidablePred (Passes prefixes) :=
  fun _ => inferInstanceAs (Decidable (_ ∨ _))

theorem echoes_eq (c : GameConfig) : c.echoes = fun line => decide (Passes c.echoPrefixes line) := by
  funext line
  rw [Bool.eq_iff_iff, decide_eq_true_eq]
  simp [GameConfig.echoes, Passes]

/-- Those of these remarks that are passed on, as remarks of a player. -/
def shownOf (prefixes : List String) (p : Player) (lines : List String) : List (Player × String) :=
  (lines.filter (Passes prefixes)).map (p, ·)

/-- What is passed on of the remarks before the answer to a request. -/
def Request.passedOn (prefixes : List String) (r : Request) : List (Player × String) :=
  if r.command = "gen" then shownOf prefixes r.player r.exchange.diagnostics else []

/-- The remarks of these events are those of their requests for a move. -/
def PassesOn (c : GameConfig) (events : List Event) : Prop :=
  diagnostics events = (requests events).flatMap (Request.passedOn c.echoPrefixes)

theorem diagnostics_append (before after : List Event) :
    diagnostics (before ++ after) = diagnostics before ++ diagnostics after :=
  List.filterMap_append

theorem diagnostics_diagnostic (p : Player) (lines : List String) :
    diagnostics (lines.map (.diagnostic p)) = lines.map (p, ·) := by
  unfold diagnostics
  rw [List.filterMap_map]
  exact congrFun List.filterMap_eq_map lines

section PassesOn

variable {c : GameConfig} {seating : Seating} {n : ℕ} {clocks : ByPlayer Clock}
  {events more : List Event}

theorem PassesOn.append (h : PassesOn c events) (h' : PassesOn c more) :
    PassesOn c (events ++ more) := by
  unfold PassesOn
  rw [diagnostics_append, requests_append, List.flatMap_append, h, h']

/-- Events that ask for no move and pass nothing on. -/
theorem passesOn_of_plain (hnone : diagnostics events = [])
    (h : ∀ r ∈ requests events, r.command ≠ "gen") : PassesOn c events := by
  unfold PassesOn
  rw [hnone, eq_comm, List.flatMap_eq_nil_iff]
  exact fun r hr => if_neg (h r hr)

theorem passesOn_genEvents (label : String) (x : Exchange) :
    PassesOn c (genEvents c seating n clocks label x) := by
  unfold PassesOn genEvents
  rw [requests_request, requests_diagnostics, List.flatMap_singleton, echoes_eq]
  exact diagnostics_diagnostic _ _

theorem MoveCourse.passesOn {token : String} {elapsed : UInt64} {r : Except GameError TurnEnd}
    (h : MoveCourse c seating n clocks token elapsed events r) : PassesOn c events := by
  refine passesOn_of_plain ?_ h.ne_gen
  cases h <;> rfl

/-- A turn passes on the remarks of its mover, whatever comes of its `gen`. -/
theorem TurnCourse.passesOn {r : Except GameError TurnEnd}
    (h : TurnCourse c seating n clocks events r) : PassesOn c events := by
  cases h with
  | timeout => exact (passesOn_genEvents _ _).append rfl
  | genFailed => exact passesOn_genEvents _ _
  | emptyMove => exact passesOn_genEvents _ _
  | noMove => exact (passesOn_genEvents _ _).append rfl
  | played _ _ hmove => exact (passesOn_genEvents _ _).append hmove.passesOn

theorem QuietTurns.passesOn {m : ℕ} {clocks' : ByPlayer Clock}
    (h : QuietTurns c seating n clocks events m clocks') : PassesOn c events := by
  induction h with
  | none => rfl
  | next _ hturn _ ih => exact hturn.passesOn.append ih

theorem TurnsCourse.passesOn {r : Except GameError Verdict}
    (h : TurnsCourse c seating n clocks events r) : PassesOn c events := by
  cases h with
  | counterFull hq _ => exact hq.passesOn
  | failed hq _ hlast => exact hq.passesOn.append hlast.passesOn
  | ended hq _ hlast => exact hq.passesOn.append hlast.passesOn

theorem AskCourse.passesOn {p : Player} {commands : List String} {r : Except GameError Unit}
    (h : AskCourse p commands events r)
    (hplain : ∀ command ∈ commands, command ≠ "gen" ∧ playToken? command = none) :
    PassesOn c events := by
  refine passesOn_of_plain ?_ fun r hr => (h.plain hplain r hr).1
  induction h with
  | done => rfl
  | failed => rfl
  | answered _ _ ih => exact ih fun command hc => hplain command (List.mem_cons_of_mem _ hc)

/-- **A game** passes on the remarks before its moves and no others. -/
theorem GameCourse.passesOn {reader : List Event → Player} {r : Except GameError GameRecord}
    (h : GameCourse c seating reader events r) : PassesOn c events := by
  have hlimits : ∀ {p s events} {r : Except GameError Unit}, AskCourse p (limitTexts s) events r →
      PassesOn c events := fun h => h.passesOn (plain_limitTexts _)
  have hclosing : ∀ (reader : Player) (label label' : String) (history board : Exchange),
      PassesOn c [asked reader label "history" history, asked reader label' "board" board] :=
    fun reader _ _ history board => passesOn_of_plain rfl fun _ hr =>
      (plain_closing _ ((asks_closing reader history board).of_mem hr).2.1).1
  cases h with
  | limitsFailed ha => exact hlimits ha
  | otherLimitsFailed ha hb => exact (hlimits ha).append (hlimits hb)
  | turnsFailed ha hb ht => exact ((hlimits ha).append (hlimits hb)).append ht.passesOn
  | historyFailed ha hb ht _ => exact (((hlimits ha).append (hlimits hb)).append ht.passesOn).append rfl
  | boardFailed ha hb ht _ _ =>
    exact (((hlimits ha).append (hlimits hb)).append ht.passesOn).append (hclosing _ _ _ _ _)
  | recorded ha hb ht _ _ =>
    exact (((hlimits ha).append (hlimits hb)).append ht.passesOn).append (hclosing _ _ _ _ _)

end PassesOn

/-! ## Who is asked for a move -/

/-- The players who are asked for a move, in order. -/
def movers (rs : List Request) : List Player := (rs.filter (·.command = "gen")).map (·.player)

section Movers

variable {c : GameConfig} {seating : Seating} {n m : ℕ} {rs : List Request}

theorem movers_append (rs rs' : List Request) : movers (rs ++ rs') = movers rs ++ movers rs' := by
  unfold movers
  rw [List.filter_append, List.map_append]

theorem movers_eq_nil (h : ∀ r ∈ rs, r.command ≠ "gen") : movers rs = [] := by
  unfold movers
  rw [List.filter_eq_nil_iff.mpr (by simpa using h), List.map_nil]

theorem movers_genRequest (x : Exchange) (h : ∀ r ∈ rs, r.command ≠ "gen") :
    movers (genRequest c seating n x :: rs) = [mover seating n] := by
  rw [← List.singleton_append, movers_append, movers_eq_nil h]
  rfl

theorem LastTurn.movers_eq (h : LastTurn c seating n rs) : movers rs = [mover seating n] := by
  cases h with
  | gen => rfl
  | plays => exact movers_genRequest _ (playRequests_ne_gen _ _ _ _ _)
  | whole => exact movers_genRequest _ (turnRequests_ne_gen _ _ _ _ _ _ _)

theorem InTurn.movers_eq (h : InTurn (QuietTurn c seating) n m rs) :
    ∃ k, m = n + k ∧ movers rs = (List.range' n k).map (mover seating) := by
  induction h with
  | none => exact ⟨0, rfl, rfl⟩
  | @next n m rs more hturn _ ih =>
    obtain ⟨k, rfl, hmore⟩ := ih
    refine ⟨k + 1, by omega, ?_⟩
    rw [movers_append, hturn.lastTurn.movers_eq, hmore, List.range'_succ, List.map_cons]
    rfl

theorem Asks.movers_eq {p : Player} {commands : List String} (h : Asks p commands rs)
    (hplain : ∀ command ∈ commands, command ≠ "gen" ∧ playToken? command = none) : movers rs = [] :=
  movers_eq_nil fun _ hr => (hplain _ (h.of_mem hr).2.1).1

theorem Dialogue.movers_eq (h : Dialogue c seating rs) :
    ∃ k, movers rs = (List.range' 1 k).map (mover seating) := by
  obtain ⟨hlimits, hothers, hturns, hlast, hclosing⟩ := h
  obtain ⟨k, rfl, hk⟩ := hturns.movers_eq
  refine ⟨k + 1, ?_⟩
  simp only [movers_append, hlimits.movers_eq (plain_limitTexts _),
    hothers.movers_eq (plain_limitTexts _), hk, hlast.movers_eq, hclosing.movers_eq plain_closing,
    List.nil_append, List.append_nil, List.range'_concat, List.map_append, Nat.one_mul]
  rfl

/-- A beginning of the values at successive numbers is the values at the first of them. -/
theorem eq_map_range'_of_prefix {f : ℕ → τ} {k : ℕ} {xs : List τ}
    (h : xs <+: (List.range' 1 k).map f) : xs = (List.range' 1 xs.length).map f := by
  have hle : xs.length ≤ k := by simpa using h.length_le
  obtain ⟨d, rfl⟩ := Nat.exists_eq_add_of_le hle
  rw [← List.range'_append_1, List.map_append] at h
  exact (List.prefix_of_prefix_length_le h (List.prefix_append _ _) (by simp)).eq_of_length (by simp)

/-- **The mover of each turn** is the one who is asked for a move in it. -/
theorem GameCourse.movers_eq {reader : List Event → Player} {events : List Event}
    {r : Except GameError GameRecord} (h : GameCourse c seating reader events r) :
    movers (requests events) =
      (List.range' 1 (movers (requests events)).length).map (mover seating) := by
  obtain ⟨word, hword, hpre, -⟩ := h.prefix_dialogue
  obtain ⟨k, hk⟩ := hword.movers_eq
  refine eq_map_range'_of_prefix (k := k) ?_
  rw [← hk]
  exact (hpre.filter _).map _

end Movers

/-! ## The lines that requests take -/

section Sessions

variable {σ : Type}

open Wire (Incoming Session Peer)

/-- What a player's engine was asked, and the lines that the request took. -/
structure Hearing where
  player : Player
  command : String
  lines : List Incoming

/-- What a request to a player's engine takes in these states. -/
def hearing (pa : Peer σ) (pb : Peer τ) (s : States (Session σ) (Session τ)) (p : Player)
    (command : String) (limit : Option Duration) : Hearing where
  player := p
  command
  lines :=
    match p with
    | .a => Session.takenBy pa s.a command limit
    | .b => Session.takenBy pb s.b command limit

/-- What the requests that events show take, each in the states to which the engines have come. -/
def hearings (pa : Peer σ) (pb : Peer τ) :
    States (Session σ) (Session τ) → List Event → List Hearing
  | _, [] => []
  | s, e :: rest =>
    let later := hearings pa pb
      ((⟨Session.engine pa, Session.engine pb⟩ : Engines (Session σ) (Session τ)).after s [e]) rest
    match e with
    | .request p _ command limit _ => hearing pa pb s p command limit :: later
    | _ => later

/-- What is passed on of the lines that a request took. -/
def Hearing.passedOn (prefixes : List String) (h : Hearing) : List (Player × String) :=
  if h.command = "gen" then shownOf prefixes h.player (Wire.remarks h.lines) else []

variable {pa : Peer σ} {pb : Peer τ} {s : States (Session σ) (Session τ)}

/-- A request shows the remarks among the lines that it takes. -/
theorem remarks_hearing (p : Player) (command : String) (limit : Option Duration) :
    Wire.remarks (hearing pa pb s p command limit).lines =
      ((⟨Session.engine pa, Session.engine pb⟩ : Engines (Session σ) (Session τ)).request s p command
        limit).1.diagnostics := by
  cases p
  · exact Session.request_takes.2.1.symm
  · exact Session.request_takes.2.1.symm

theorem oneReply_hearing (p : Player) (command : String) (limit : Option Duration) :
    Wire.OneReply (hearing pa pb s p command limit).lines := by
  cases p
  · exact Session.request_takes.2.2
  · exact Session.request_takes.2.2

theorem oneReply_of_mem_hearings {events : List Event} {h : Hearing}
    (hmem : h ∈ hearings pa pb s events) : Wire.OneReply h.lines := by
  induction events generalizing s with
  | nil => cases hmem
  | cons e rest ih =>
    cases e with
    | request p label command limit x =>
      rcases List.mem_cons.mp hmem with rfl | hmem
      · exact oneReply_hearing p command limit
      · exact ih hmem
    | diagnostic => exact ih hmem
    | move => exact ih hmem
    | terminate => exact ih hmem
    | note => exact ih hmem

/-- The requests that took something are those that the events show. -/
theorem hearings_requests (events : List Event) :
    (hearings pa pb s events).map (fun h => (h.player, h.command)) =
      (requests events).map fun r => (r.player, r.command) := by
  induction events generalizing s with
  | nil => rfl
  | cons e rest ih =>
    cases e with
    | request p label command limit x => exact congrArg ((p, command) :: ·) ih
    | diagnostic => exact ih
    | move => exact ih
    | terminate => exact ih
    | note => exact ih

/-- What is passed on of the requests is passed on of the lines that they take. -/
theorem passedOn_hearings {events : List Event} (prefixes : List String)
    (h : Shown ⟨Session.engine pa, Session.engine pb⟩ s events) :
    (requests events).flatMap (Request.passedOn prefixes) =
      (hearings pa pb s events).flatMap (Hearing.passedOn prefixes) := by
  induction events generalizing s with
  | nil => rfl
  | cons e rest ih =>
    have hrest := ih h.2
    cases e with
    | request p label command limit x =>
      have hx : x.diagnostics = Wire.remarks (hearing pa pb s p command limit).lines := by
        rw [remarks_hearing, ← (show x = _ from h.1)]
      rw [requests_request, hearings, List.flatMap_cons, List.flatMap_cons, hrest]
      congr 1
      unfold Request.passedOn Hearing.passedOn
      rw [hx]
      rfl
    | diagnostic => exact hrest
    | move => exact hrest
    | terminate => exact hrest
    | note => exact hrest

end Sessions

/-! ## Other prefixes -/

/-- What events show besides remarks. -/
def besides (events : List Event) : List Event := events.filter (·.diagnostic?.isNone)

theorem besides_append (before after : List Event) :
    besides (before ++ after) = besides before ++ besides after :=
  List.filter_append ..

theorem requests_besides (events : List Event) : requests (besides events) = requests events := by
  unfold requests besides
  rw [List.filterMap_filter]
  congr 1
  funext e
  cases e <;> rfl

theorem moves_besides (events : List Event) : moves (besides events) = moves events := by
  unfold moves besides
  rw [List.filterMap_filter]
  congr 1
  funext e
  cases e <;> rfl

/-- The second part brings what the first brings, and the same happens besides the remarks. -/
def Part.SameBesides (p q : Part α β τ) : Prop :=
  ∀ ⦃s events r s'⦄, p.Brings s events r s' →
    ∃ events', q.Brings s events' r s' ∧ besides events' = besides events

namespace Part.SameBesides

variable {p q : Part α β τ} {f g : τ → Part α β υ}

theorem refl (p : Part α β τ) : p.SameBesides p := fun _ events _ _ h => ⟨events, h, rfl⟩

theorem bind (hp : p.SameBesides q) (hf : ∀ x, (f x).SameBesides (g x)) :
    (p >>= f).SameBesides (q >>= g) := by
  intro s events r s' h
  rcases Brings.of_bind h with ⟨e, he, rfl⟩ | ⟨x, s₁, before, after, hx, hrest, rfl⟩
  · obtain ⟨events', he', heq⟩ := hp he
    exact ⟨events', Brings.bind_error he', heq⟩
  · obtain ⟨before', hx', heq⟩ := hp hx
    obtain ⟨after', hrest', heq'⟩ := hf x hrest
    exact ⟨before' ++ after', Brings.bind hx' hrest', by rw [besides_append, besides_append, heq, heq']⟩

end Part.SameBesides

section Prefixes

variable {engines : Engines α β} {c : GameConfig} {seating : Seating} (prefixes : List String)

theorem besides_diagnostic (p : Player) (lines : List String) :
    besides (lines.map (.diagnostic p)) = [] := by
  refine List.filter_eq_nil_iff.mpr fun e he => ?_
  obtain ⟨line, -, rfl⟩ := List.mem_map.mp he
  exact Bool.false_ne_true

theorem sameBesides_passOn (p : Player) (lines : List String) :
    (passOn c p lines : Part α β Unit).SameBesides
      (passOn { c with echoPrefixes := prefixes } p lines) := by
  intro s events r s' h
  cases h
  exact ⟨_, rfl, by rw [besides_diagnostic, besides_diagnostic]⟩

theorem sameBesides_playTurn (turn : UInt32) (color : Color) (clocks : ByPlayer Clock) :
    (playTurn engines c seating turn color clocks).SameBesides
      (playTurn engines { c with echoPrefixes := prefixes } seating turn color clocks) := by
  unfold playTurn
  refine (Part.SameBesides.refl _).bind fun x => ?_
  exact (sameBesides_passOn prefixes _ _).bind fun _ => .refl _

/-- All turns: by induction on how often the turn counter can still be raised. -/
theorem sameBesides_playTurns (left : ℕ) (turn : UInt32) (color : Color) (clocks : ByPlayer Clock) :
    (playTurns engines c seating left turn color clocks).SameBesides
      (playTurns engines { c with echoPrefixes := prefixes } seating left turn color clocks) := by
  induction left generalizing turn color clocks with
  | zero => exact .refl _
  | succ left ih =>
    unfold playTurns
    refine (sameBesides_playTurn prefixes _ _ _).bind fun ending => ?_
    obtain ⟨winner, termination, clocks'⟩ | clocks' := ending
    · exact .refl _
    · exact ih _ _ _

/-- **With other prefixes** a game brings the same besides the remarks. -/
theorem sameBesides_game :
    (game engines c seating).SameBesides
      (game engines { c with echoPrefixes := prefixes } seating) := by
  unfold game
  refine (Part.SameBesides.refl _).bind fun _ => (Part.SameBesides.refl _).bind fun _ => ?_
  exact (sameBesides_playTurns prefixes _ _ _ _).bind fun _ => .refl _

/-- So it does from the first call on. -/
theorem play_besides (engines : Engines α β) (s : States α β) (seating : Seating) (c : GameConfig) :
    (play engines s seating { c with echoPrefixes := prefixes }).result =
        (play engines s seating c).result ∧
      besides (play engines s seating { c with echoPrefixes := prefixes }).events =
        besides (play engines s seating c).events := by
  obtain ⟨events', hother, heq⟩ := sameBesides_game prefixes (play_brings engines s seating c)
  obtain ⟨hevents, hresult, -⟩ := hother.unique (play_brings engines s seating _)
  rw [hevents]
  exact ⟨hresult, heq⟩

end Prefixes

/-! ## Games of engines behind pipes -/

section Sessions

variable {σ : Type}

open Wire (Session Peer)

/-- How a game with these events passes remarks on, if it is played with these prefixes. -/
structure RoutesRemarks (pa : Peer σ) (pb : Peer τ) (s : States (Session σ) (Session τ))
    (seating : Seating) (prefixes : List String) (events : List Event) : Prop where
  /-- Only what a `gen` takes before its reply is passed on, whatever comes of it, and all of it that
  begins with a prefix is, in order and as the remarks of the player who was asked. -/
  diagnostics_eq : diagnostics events =
    (hearings pa pb s events).flatMap (Hearing.passedOn prefixes)
  /-- The players who were asked are the movers of the turns. -/
  movers_eq : ((hearings pa pb s events).filter (·.command = "gen")).map (·.player) =
    (List.range' 1 ((hearings pa pb s events).filter (·.command = "gen")).length).map (mover seating)
  /-- What a request takes after its reply is inside a stream. -/
  oneReply : ∀ h ∈ hearings pa pb s events, Wire.OneReply h.lines

theorem movers_hearings (pa : Peer σ) (pb : Peer τ) (s : States (Session σ) (Session τ))
    (events : List Event) :
    ((hearings pa pb s events).filter (·.command = "gen")).map (·.player) =
      movers (requests events) := by
  have h := congrArg (fun pairs => (pairs.filter fun pair => pair.2 = "gen").map Prod.fst)
    (@hearings_requests τ σ pa pb s events)
  simp only [List.filter_map, List.map_map] at h
  exact h

/-- **Remarks are routed and harmless.** A game of engines behind pipes passes on the lines that begin
with one of the prefixes, of those that its `gen` requests take before their replies, as remarks of
the movers. With other prefixes it makes the same requests and moves, which bring the same, and it has
the same result. -/
theorem remarks_routed (pa : Peer σ) (pb : Peer τ) (s : States (Session σ) (Session τ))
    (seating : Seating) (c : GameConfig) :
    let outcome (c : GameConfig) := play ⟨Session.engine pa, Session.engine pb⟩ s seating c
    RoutesRemarks pa pb s seating c.echoPrefixes (outcome c).events ∧
      ∀ prefixes : List String, let other := outcome { c with echoPrefixes := prefixes }
        other.result = (outcome c).result ∧
          requests other.events = requests (outcome c).events ∧
          moves other.events = moves (outcome c).events := by
  intro outcome
  have hcourse := play_course ⟨Session.engine pa, Session.engine pb⟩ s seating c
  refine ⟨⟨?_, ?_, fun h hmem => oneReply_of_mem_hearings hmem⟩, fun prefixes => ?_⟩
  · rw [← passedOn_hearings c.echoPrefixes (game_shown c seating)]
    exact hcourse.passesOn
  · rw [← List.length_map Hearing.player, movers_hearings]
    exact hcourse.movers_eq
  · obtain ⟨hresult, hbesides⟩ :=
      play_besides prefixes ⟨Session.engine pa, Session.engine pb⟩ s seating c
    refine ⟨hresult, ?_, ?_⟩
    · rw [← requests_besides, hbesides, requests_besides]
    · rw [← moves_besides, hbesides, moves_besides]

/-- A remark that comes too late for its `gen` is taken by the next request, and is not passed on; no
more are those in a stream. -/
example :
    let client (label : String) (lines : List String) : Session Unit :=
      { client := { label, pipe := some { fault := "" },
                    inbox := { queue := lines.map .line, ended := true } }
        peer := () }
    let a := client "a" ["=", "=", "=", " solution 1 ", "", "info", "= a1", "solution 2", "=", "=",
      "=", "=\x02", "solution 3", "\x03", "="]
    let b := client "b" ["=", "=", "=", "=", "solution 4", "= b1", "=", "="]
    let outcome (prefixes : List String) := play
      ⟨Session.engine Wire.deaf, Session.engine Wire.deaf⟩ ⟨a, b⟩ ⟨.black⟩
      { maxTurns := some 2, echoPrefixes := prefixes }
    diagnostics (outcome ["solution"]).events = [(.a, "solution 1"), (.b, "solution 4")] ∧
      diagnostics (outcome []).events =
        [(.a, "solution 1"), (.a, "info"), (.b, "solution 4")] := by
  decide +kernel

end Sessions

end EngineDuel.Game

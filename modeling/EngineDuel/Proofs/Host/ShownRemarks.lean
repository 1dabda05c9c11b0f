import EngineDuel.Host.Arena
import EngineDuel.Proofs.Game.Remarks
import EngineDuel.Proofs.Options.Settings

/-!
# Remarks that a tournament shows

A tournament shows what engines say while they think, if it begins with one of the texts that were
given for this on the command line (`prefixes_heeded`). With one exception: an empty text, which every
line begins with, counts for nothing if another text is given too (`heeded`).

1. The options of a command line leave the texts as they were given, in order, whatever else is given
   between them (`echoPrefixes_putAll`).
2. An empty prefix is left out, and without prefixes everything passes. What this comes to are the
   texts that count (`passes_filter_iff`).
3. So a game passes on the remarks before its moves that begin with a text that counts
   (`PassesOn.shown`), and they are printed as they come (`printed_play`).
-/

namespace EngineDuel

open EngineDuel.Options

namespace ArenaOptions

/-! ## Texts that count -/

/-- A line that begins with one of these texts. -/
def BeginsWithOne (texts : List String) (line : String) : Prop :=
  ∃ text ∈ texts, text.toList <+: line.toList

instance (texts : List String) : DecidablePred (BeginsWithOne texts) :=
  fun _ => inferInstanceAs (Decidable (∃ _ ∈ texts, _))

/-- Those of these texts that count: an empty one only if there is no other. -/
def heeded (texts : List String) : List String :=
  if ∃ text ∈ texts, text ≠ "" then texts.filter (· ≠ "") else texts

/-- All texts count if the empty one is not among others. -/
theorem heeded_eq_self {texts : List String} (h : "" ∉ texts ∨ ∀ text ∈ texts, text = "") :
    heeded texts = texts := by
  unfold heeded
  split_ifs with hother
  · obtain ⟨other, hmem, hne⟩ := hother
    have hnone : "" ∉ texts := h.resolve_right fun hall => hne (hall other hmem)
    refine List.filter_eq_self.2 fun text htext => decide_eq_true ?_
    exact fun hempty => hnone (hempty ▸ htext)
  · rfl

/-- The prefixes that are left of some texts let pass what begins with a text that counts. -/
theorem passes_filter_iff {texts : List String} (h : texts ≠ []) (line : String) :
    Game.Passes (texts.filter (· ≠ "")) line ↔ BeginsWithOne (heeded texts) line := by
  unfold heeded
  split_ifs with hother
  · obtain ⟨other, hmem, hne⟩ := hother
    have hsome : texts.filter (· ≠ "") ≠ [] :=
      List.ne_nil_of_mem (List.mem_filter.2 ⟨hmem, decide_eq_true hne⟩)
    exact or_iff_right hsome
  · have hempty : ∀ text ∈ texts, text = "" := fun text htext =>
      not_not.1 fun hne => hother ⟨text, htext, hne⟩
    have hnone : texts.filter (· ≠ "") = [] :=
      List.filter_eq_nil_iff.2 fun text htext => by simpa using hempty text htext
    refine iff_of_true (.inl hnone) ?_
    obtain ⟨text, htext⟩ := List.exists_mem_of_ne_nil texts h
    exact ⟨text, htext, hempty text htext ▸ List.nil_prefix⟩

/-! ## Texts on a command line -/

/-- The texts that options give for the starts of remarks. -/
def prefixTexts (settings : List Setting) : List String :=
  (settings.filter (·.name = "echo-prefix")).map Setting.value

/-- What an option with a value does to the starts of remarks: if it is the one for them, it adds the
value to them. -/
def AddsStart (spec : Spec ArenaOptions) : Prop :=
  ∀ put (value : String) o o', spec.effect = .value put → put value o = .ok o' →
    o'.echoPrefixes = o.echoPrefixes ++ if spec.name = "echo-prefix" then [value] else []

/-- An option that puts what it reads elsewhere adds nothing. -/
theorem addsStart_of_read {β : Type} {read : RawText → Except ValueFault β}
    {set : β → ArenaOptions → ArenaOptions} {spec : Spec ArenaOptions}
    (heffect : spec.effect = .value fun value o => (read value).map fun x => set x o)
    (hname : spec.name ≠ "echo-prefix") (hset : ∀ x o, (set x o).echoPrefixes = o.echoPrefixes) :
    AddsStart spec := by
  intro put value o o' hput h
  cases heffect.symm.trans hput
  have hread : (read (.text value)).map (fun x => set x o) = .ok o' := h
  cases hvalue : read (.text value) with
  | error e =>
    rw [hvalue] at hread
    cases hread
  | ok x =>
    rw [hvalue] at hread
    cases hread
    rw [if_neg hname, List.append_nil, hset]

theorem addsStart_of_mem : ∀ spec ∈ specs, AddsStart spec := by
  simp only [specs, List.forall_mem_cons]
  and_intros
  any_goals exact addsStart_of_read rfl (by decide) fun _ _ => rfl
  -- The option for the starts of remarks is left, and two that have no value.
  · intro put value o o' hput h
    cases hput
    cases h
    rfl
  · exact fun put value o o' hput => nomatch hput
  · exact fun put value o o' hput => nomatch hput
  · exact List.forall_mem_nil _

variable {settings : List Setting} {o o' : ArenaOptions}

/-- One option with its value. -/
theorem echoPrefixes_put {s : Setting} (h : s.put specs o = .ok o') :
    o'.echoPrefixes = o.echoPrefixes ++ prefixTexts [s] := by
  obtain ⟨spec, put, hfound, heffect, hvalue⟩ := Setting.exists_of_put h
  have hadds := addsStart_of_mem spec (List.mem_of_find?_eq_some hfound) put s.value o o' heffect hvalue
  rw [hadds, Setting.name_of_find? hfound, prefixTexts, List.filter_singleton]
  by_cases hname : s.name = "echo-prefix" <;> simp [hname]

/-- **All options** leave the texts as they were given, in order. -/
theorem echoPrefixes_putAll (h : Setting.putAll specs settings o = .ok o') :
    o'.echoPrefixes = o.echoPrefixes ++ prefixTexts settings := by
  induction settings generalizing o with
  | nil =>
    cases h
    exact (List.append_nil _).symm
  | cons s settings ih =>
    obtain ⟨o₁, hone, hlater⟩ := exists_of_bind_ok h
    rw [ih hlater, echoPrefixes_put hone, List.append_assoc]
    congr 1
    rw [prefixTexts, prefixTexts, ← List.map_append, ← List.filter_append]
    rfl

/-- The prefixes of a game are the texts that were given, without the empty ones. -/
theorem shownPrefixes_of_putAll (h : Setting.putAll specs settings {} = .ok o)
    (hgiven : prefixTexts settings ≠ []) :
    o.shownPrefixes = (prefixTexts settings).filter (· ≠ "") := by
  have htexts : o.echoPrefixes = prefixTexts settings := echoPrefixes_putAll h
  rw [shownPrefixes, htexts, if_neg (by simpa using hgiven)]

end ArenaOptions

/-! ## Remarks that are passed on -/

namespace Game

open ArenaOptions (BeginsWithOne heeded passes_filter_iff)

variable {c : GameConfig} {texts : List String}

/-- The remarks that are shown of those before the answer to a request, if these texts were given:
what an engine says before it moves, if it begins with a text that counts. -/
def Request.shown (texts : List String) (r : Request) : List (Player × String) :=
  if r.command = "gen" then
    (r.exchange.diagnostics.filter (BeginsWithOne (heeded texts))).map (r.player, ·)
  else []

theorem passedOn_filter (h : texts ≠ []) (r : Request) :
    r.passedOn (texts.filter (· ≠ "")) = r.shown texts := by
  unfold Request.passedOn Request.shown shownOf
  simp only [passes_filter_iff h]

/-- **A game** passes on the remarks before its moves that begin with a text that counts. -/
theorem PassesOn.shown {events : List Event} (h : PassesOn c events)
    (hprefixes : c.echoPrefixes = texts.filter (· ≠ "")) (htexts : texts ≠ []) :
    diagnostics events = (requests events).flatMap (Request.shown texts) := by
  unfold PassesOn at h
  rw [h, hprefixes, funext (passedOn_filter htexts)]

end Game

namespace Host

open Game ArenaOptions

theorem playGame_passesOn (launch : Launcher) (files : Workspace) (cwd : Place)
    (engines : ByPlayer EngineConfig) (seating : Seating) (c : GameConfig) :
    PassesOn c (playGame launch files cwd engines seating c).events := by
  unfold playGame
  dsimp only
  split
  · rfl
  · split
    · rfl
    · exact (play_course _ _ _ _).passesOn

namespace Arena

/-- The line that is printed for a remark. -/
def remarkLine (now : Moment) (tag : String) (remark : Player × String) : String :=
  stamped now (tag ++ " " ++ remark.1.name ++ ": " ++ remark.2)

theorem flatMap_echo (now : Moment) (tag : String) (events : List Event) :
    events.flatMap (echo now tag) = (diagnostics events).map (remarkLine now tag) := by
  induction events with
  | nil => rfl
  | cons e rest ih =>
    rw [List.flatMap_cons, ih]
    cases e <;> rfl

/-- A game prints a line for each remark that it passes on. -/
theorem printed_play {v : Venue} {o : ArenaOptions} {engines : ByPlayer EngineConfig} {d : Desk}
    {number : UInt32} {seating : Seating} {tag : String}
    (htag : Report.gameTag number o.numGames = .ok tag) :
    ((hooks v o engines).play d number seating).state.printed =
      ((diagnostics (playGame v.launch d.files v.cwd engines seating o.config).events).map
        (remarkLine v.now tag)).reverse ++ d.printed := by
  rw [← flatMap_echo]
  simp only [hooks, htag]

/-! ## The whole way -/

/-- **The texts that are given for the starts of remarks** are what a tournament goes by. A command
line that gives some, among other options, is understood. In a game with these options, whoever
plays, those remarks before the moves are passed on that begin with one of the texts, and in a game of
the tournament they are printed. An empty text counts only if no other is given. -/
theorem prefixes_heeded {settings : List Setting} {o : ArenaOptions}
    (hclear : Setting.AreClear ArenaOptions.specs settings)
    (hread : Setting.putAll ArenaOptions.specs settings {} = .ok o)
    (hrequired : ∀ spec ∈ ArenaOptions.specs, spec.required = true →
      spec.name ∈ settings.map Setting.name)
    (hgiven : prefixTexts settings ≠ []) :
    let texts := prefixTexts settings
    ArenaOptions.parse (settings.flatMap Setting.arguments) = .ok o ∧
      (∀ (α β : Type) (engines : Engines α β) (s : States α β) (seating : Seating),
        let events := (play engines s seating o.config).events
        diagnostics events = (requests events).flatMap (Request.shown texts)) ∧
      (∀ (v : Venue) (engines : ByPlayer EngineConfig) (d : Desk) (number : UInt32)
          (seating : Seating) (tag : String), Report.gameTag number o.numGames = .ok tag →
        let events := (playGame v.launch d.files v.cwd engines seating o.config).events
        ((hooks v o engines).play d number seating).state.printed =
          (((requests events).flatMap (Request.shown texts)).map (remarkLine v.now tag)).reverse
            ++ d.printed) ∧
      ("" ∉ texts ∨ (∀ text ∈ texts, text = "") → heeded texts = texts) := by
  intro texts
  have hprefixes : o.config.echoPrefixes = texts.filter (· ≠ "") :=
    shownPrefixes_of_putAll hread hgiven
  refine ⟨parse_settings hclear hread hrequired, fun α β engines s seating => ?_, ?_, heeded_eq_self⟩
  · exact (play_course engines s seating o.config).passesOn.shown hprefixes hgiven
  · intro v engines d number seating tag htag events
    have hpasses : PassesOn o.config events := playGame_passesOn _ _ _ _ _ _
    rw [printed_play htag, hpasses.shown hprefixes hgiven]

/-- Options with an empty text and one that looks like an option. -/
def mixed : List Setting := [
  { name := "echo-prefix", value := "" },
  { name := "a-path", value := "a" },
  { name := "echo-prefix", value := "--", attached := true },
  { name := "b-path", value := "b" }]

/-- What these options come to. -/
def mixedOptions : ArenaOptions := { aPath := "a", bPath := "b", echoPrefixes := ["", "--"] }

/-- Of an empty text and another one only the other one counts, in the first game for instance. -/
theorem prefixes_heeded_mixed :
    ArenaOptions.parse ["--echo-prefix", "", "--a-path", "a", "--echo-prefix=--", "--b-path", "b"] =
        .ok mixedOptions ∧
      heeded ["", "--"] = ["--"] ∧
      (∀ (α β : Type) (engines : Engines α β) (s : States α β) (seating : Seating),
        let events := (play engines s seating mixedOptions.config).events
        diagnostics events = (requests events).flatMap (Request.shown ["", "--"])) ∧
      ∀ (v : Venue) (engines : ByPlayer EngineConfig) (d : Desk) (seating : Seating),
        let events := (playGame v.launch d.files v.cwd engines seating mixedOptions.config).events
        ((hooks v mixedOptions engines).play d 0 seating).state.printed =
          (((requests events).flatMap (Request.shown ["", "--"])).map
            (remarkLine v.now "[1/100]")).reverse ++ d.printed := by
  have hclear : Setting.AreClear ArenaOptions.specs mixed := ⟨by decide, by decide +kernel, by decide⟩
  have hread : Setting.putAll ArenaOptions.specs mixed {} = .ok mixedOptions := rfl
  have htag : Report.gameTag 0 mixedOptions.numGames = .ok "[1/100]" := by decide
  obtain ⟨hparse, hgame, hprinted, -⟩ := prefixes_heeded hclear hread (by decide) (by decide)
  exact ⟨hparse, by decide, hgame, fun v engines d seating => hprinted v engines d 0 seating _ htag⟩

/-- An engine behind a pipe that says these lines. -/
def saying (label : String) (lines : List String) : Wire.Session Unit where
  client := { label, pipe := some { fault := "" }, inbox := { queue := lines.map .line, ended := true } }
  peer := ()

/-- With an empty text and another one not everything is passed on. -/
theorem prefixes_unheeded :
    let events (o : ArenaOptions) := (play
      ⟨Wire.Session.engine Wire.deaf, Wire.Session.engine Wire.deaf⟩
      ⟨saying "a" ["=", "=", "=", "info", "solution", "= a1", "=", "=", "=", "="],
        saying "b" ["=", "=", "=", "="]⟩ ⟨.black⟩ o.config).events
    (ArenaOptions.parse ["--a-path", "a", "--b-path", "b", "--max-turns", "1", "--echo-prefix", "",
          "--echo-prefix", "solution"]).map (fun o => (o.echoPrefixes,
            (requests (events o)).flatMap (·.exchange.diagnostics), diagnostics (events o))) =
        .ok (["", "solution"], ["info", "solution"], [(.a, "solution")]) ∧
      BeginsWithOne ["", "solution"] "info" := by
  decide +kernel

end Arena

end Host

end EngineDuel

import EngineDuel.Options.Arena
import EngineDuel.Options.Tuner
import EngineDuel.Proofs.Options.Settings
import EngineDuel.Tuning.RaceSettings

/-!
# The arguments of a match, understood

A search tells the program that plays tournaments how two engines play. That program understands
what was meant, down to the last character of the parameters (`arguments_understood`), with one
exception: a factor with a minus sign. A search takes such a factor (`parse_factor`), but passes it
on as an argument of its own, and the option for it does not allow a value that looks like an
option. Then no match of the search takes place.

1. Ten options stand before the factor, each of them clear (`clear_settings`), and their values are
   read back (`putAll_settings`).
2. The text of a finite factor is a sign and a digit with more behind it (`factor_text`). So the
   factor is clear exactly if it has no sign.
-/

namespace EngineDuel

open EngineDuel.Options

namespace Tuning

/-- An engine that can be told to another program. -/
structure Contestant.IsTellable (c : Contestant) : Prop where
  path_ne : c.path ≠ ""
  path_head : c.path.toList.head? ≠ some '-'
  rating : Number.IsNumber c.rating

namespace RaceSettings

variable {s : RaceSettings} {baseline target : Contestant}

/-- What two engines and the way they play mean as a tournament. -/
def tournament (s : RaceSettings) (baseline target : Contestant) : ArenaOptions where
  aPath := baseline.path
  aParams := s.engineParams
  bPath := target.path
  bParams := s.engineParams
  numGames := s.numGames
  clock := s.clock
  ratings := ⟨baseline.rating, target.rating, s.kFactor⟩

/-- The options before the factor. -/
def settings (s : RaceSettings) (baseline target : Contestant) : List Setting := [
  { name := "a-path", value := baseline.path },
  { name := "a-params", value := s.engineParams, attached := true },
  { name := "b-path", value := target.path },
  { name := "b-params", value := s.engineParams, attached := true },
  { name := "total-time", value := toString s.clock.totalMs.toNat },
  { name := "increment-time", value := toString s.clock.incrementMs.toNat },
  { name := "turn-time", value := toString s.clock.turnMs.toNat },
  { name := "num-games", value := toString s.numGames.toNat },
  { name := "a-elo", value := Number.plain baseline.rating },
  { name := "b-elo", value := Number.plain target.rating }]

/-- A factor as an option. -/
def factor (k : Float) (attached : Bool) : Setting :=
  { name := "elo-k-factor", value := Number.plain k, attached }

theorem arguments_eq (h : s.extraArgs = []) :
    (s.arguments baseline target).map .text =
      (s.settings baseline target).flatMap Setting.arguments ++
        (factor s.kFactor false).arguments := by
  simp [arguments, h, settings, factor, Setting.arguments]

/-! ## The options before the factor -/

theorem clear_settings (hb : baseline.IsTellable) (ht : target.IsTellable) :
    Setting.AreClear ArenaOptions.specs (s.settings baseline target) where
  named := by simp [settings, Setting.IsNamed]
  apart := by
    have hhead {name value : String} (h : value.toList.head? ≠ some '-') :
        Setting.IsApart ArenaOptions.specs { name, value } := .inr (.inr h)
    have hrating {name value : String} (h : name = "a-elo" ∨ name = "b-elo") :
        Setting.IsApart ArenaOptions.specs { name, value } := by
      rcases h with rfl | rfl <;> exact .inr (.inl rfl)
    simp only [settings, List.forall_mem_cons]
    exact ⟨hhead hb.path_head, .inl rfl, hhead ht.path_head, .inl rfl, hhead (head?_toString_ne _),
      hhead (head?_toString_ne _), hhead (head?_toString_ne _), hhead (head?_toString_ne _),
      hrating (.inl rfl), hrating (.inr rfl), List.forall_mem_nil _⟩
  once := by
    refine Setting.once_of_nodup ?_
    show ["a-path", "a-params", "b-path", "b-params", "total-time", "increment-time", "turn-time",
      "num-games", "a-elo", "b-elo"].Nodup
    decide

theorem putAll_settings (hb : baseline.IsTellable) (ht : target.IsTellable) :
    Setting.putAll ArenaOptions.specs (s.settings baseline target) {} =
      .ok { s.tournament baseline target with
        ratings := ⟨baseline.rating, target.rating, 32.0⟩ } := by
  refine Setting.putAll_cons (Setting.put_read _ rfl rfl (rawPath_of_ne hb.path_ne)) ?_
  refine Setting.putAll_cons rfl ?_
  refine Setting.putAll_cons (Setting.put_read _ rfl rfl (rawPath_of_ne ht.path_ne)) ?_
  refine Setting.putAll_cons rfl ?_
  refine Setting.putAll_cons (Setting.put_read _ rfl rfl (word64_toString _)) ?_
  refine Setting.putAll_cons (Setting.put_read _ rfl rfl (word64_toString _)) ?_
  refine Setting.putAll_cons (Setting.put_read _ rfl rfl (word64_toString _)) ?_
  refine Setting.putAll_cons (Setting.put_read _ rfl rfl (word32_toString _)) ?_
  refine Setting.putAll_cons (Setting.put_read _ rfl rfl (float_plain hb.rating)) ?_
  refine Setting.putAll_cons (Setting.put_read _ rfl rfl (float_plain ht.rating)) ?_
  rfl

/-! ## The factor -/

variable {k : Float} {attached : Bool}

theorem named_factor : (factor k attached).IsNamed := by simp [factor, Setting.IsNamed]

theorem float_factor (h : Number.isFinite k = true) : float (factor k attached).value = .ok k :=
  float_plain (Nat.le_of_lt (of_decide_eq_true h))

/-- A search takes every finite factor behind an equals sign. -/
theorem parse_factor (h : Number.isFinite k = true) :
    TunerOptions.parse [.text ("--elo-k-factor=" ++ Number.plain k)] = .ok { kFactor := k } := by
  have hargs : [.text ("--elo-k-factor=" ++ Number.plain k)] =
      [factor k true].flatMap Setting.arguments := by
    simp [factor, Setting.arguments]
  have hclear : Setting.AreClear TunerOptions.specs [factor k true] :=
    ⟨List.forall_mem_singleton.2 named_factor, List.forall_mem_singleton.2 (Or.inl rfl),
      List.pairwise_singleton _ _⟩
  have hput : Setting.putAll TunerOptions.specs [factor k true] {} = .ok { kFactor := k } :=
    Setting.putAll_cons (Setting.put_read _ rfl rfl (float_factor h)) rfl
  have hall : TunerOptions.specs.all (fun spec => !spec.required) = true := rfl
  rw [hargs]
  refine parse_settings hclear hput fun spec hspec hrequired => ?_
  have hfree := List.all_eq_true.1 hall spec hspec
  rw [hrequired] at hfree
  cases hfree

/-- A finite factor is a sign and a text that begins with a digit. -/
theorem factor_text (h : Number.isFinite k = true) :
    ∃ digit text, digit.isDigit = true ∧
      (factor k attached).value.toList = Number.minus (Number.isNegative k) ++ digit :: text := by
  obtain ⟨whole, fraction, htext, -⟩ := Number.positional_text (Number.shortest (Number.pattern k))
  obtain ⟨digit, text, heq, hdigit⟩ := htext.head
  rw [factor, Number.plain_toList h, heq]
  exact ⟨digit, text, hdigit, rfl⟩

theorem head?_factor_ne (h : Number.isFinite k = true) (hsign : Number.isNegative k = false) :
    (factor k attached).value.toList.head? ≠ some '-' := by
  obtain ⟨digit, text, hdigit, heq⟩ := @factor_text k attached h
  rw [heq, hsign]
  rintro ⟨⟩
  cases hdigit

/-! ## The whole command line -/

theorem name_of_required {spec : Spec ArenaOptions} (h : spec ∈ ArenaOptions.specs)
    (hrequired : spec.required = true) : spec.name = "a-path" ∨ spec.name = "b-path" := by
  have hall : ArenaOptions.specs.all (fun spec =>
      !spec.required || spec.name == "a-path" || spec.name == "b-path") = true := rfl
  have hname := List.all_eq_true.1 hall spec h
  rw [hrequired] at hname
  simpa using hname

/-- No option of one letter is a digit. -/
theorem find?_digit {digit : Char} (h : digit.isDigit = true) :
    ArenaOptions.specs.find? (fun spec => spec.letter = some digit) = none := by
  have hall : ArenaOptions.specs.all (fun spec => !spec.letter.any Char.isDigit) = true := rfl
  refine List.find?_eq_none.2 fun spec hspec heq => ?_
  have hletter := List.all_eq_true.1 hall spec hspec
  rw [of_decide_eq_true heq, Option.any_some, h] at hletter
  cases hletter

/-- A factor that is not negative is understood with everything else. -/
theorem parse_arguments_of_not_negative (hextra : s.extraArgs = [])
    (hfactor : Number.isFinite s.kFactor = true) (hsign : Number.isNegative s.kFactor = false)
    (hb : baseline.IsTellable) (ht : target.IsTellable) :
    ArenaOptions.parse ((s.arguments baseline target).map .text) =
      .ok (s.tournament baseline target) := by
  let settings := s.settings baseline target ++ [factor s.kFactor false]
  have hclear : Setting.AreClear ArenaOptions.specs settings := by
    refine (clear_settings hb ht).append_singleton named_factor
      (.inr (.inr (head?_factor_ne hfactor hsign))) ?_
    show "elo-k-factor" ∉ ["a-path", "a-params", "b-path", "b-params", "total-time",
      "increment-time", "turn-time", "num-games", "a-elo", "b-elo"]
    decide
  have hput : Setting.putAll ArenaOptions.specs settings {} = .ok (s.tournament baseline target) :=
    Setting.putAll_append (putAll_settings hb ht)
      (Setting.putAll_cons (Setting.put_read _ rfl rfl (float_factor hfactor)) rfl)
  have hrequired : ∀ spec ∈ ArenaOptions.specs, spec.required = true →
      spec.name ∈ settings.map Setting.name := by
    intro spec hspec hmust
    rcases name_of_required hspec hmust with h | h <;> simp [h, settings, RaceSettings.settings]
  have hargs : (s.arguments baseline target).map .text = settings.flatMap Setting.arguments := by
    rw [arguments_eq hextra, List.flatMap_append, List.flatMap_singleton]
  rw [hargs]
  exact parse_settings hclear hput hrequired

/-- A negative factor looks like an option. -/
theorem parse_arguments_of_negative (hextra : s.extraArgs = [])
    (hfactor : Number.isFinite s.kFactor = true) (hsign : Number.isNegative s.kFactor = true)
    (hb : baseline.IsTellable) (ht : target.IsTellable) :
    ∃ digit, digit.isDigit = true ∧ ArenaOptions.parse ((s.arguments baseline target).map .text) =
      .error (.strayArgument (String.ofList ['-', digit])) := by
  obtain ⟨digit, text, hdigit, hvalue⟩ := @factor_text s.kFactor false hfactor
  rw [hsign] at hvalue
  have hhyphen : digit ≠ '-' := fun h => by simp [h] at hdigit
  refine ⟨digit, hdigit, ?_⟩
  rw [arguments_eq hextra, ← List.append_nil (factor _ _).arguments]
  exact parse_refused (clear_settings hb ht) (putAll_settings hb ht) named_factor rfl rfl
    Bool.false_ne_true rfl hvalue hhyphen (find?_digit hdigit) []

/-- **The program that plays tournaments understands what a search meant**, if the factor is not
negative. A negative factor is refused and the whole command line with it, though a search takes
every finite factor. -/
theorem arguments_understood (hextra : s.extraArgs = [])
    (hfactor : Number.isFinite s.kFactor = true) (hb : baseline.IsTellable)
    (ht : target.IsTellable) :
    TunerOptions.parse [.text ("--elo-k-factor=" ++ Number.plain s.kFactor)] =
        .ok { kFactor := s.kFactor } ∧
      (Number.isNegative s.kFactor = false →
        ArenaOptions.parse ((s.arguments baseline target).map .text) =
          .ok (s.tournament baseline target)) ∧
      (Number.isNegative s.kFactor = true → ∃ digit, digit.isDigit = true ∧
        ArenaOptions.parse ((s.arguments baseline target).map .text) =
          .error (.strayArgument (String.ofList ['-', digit]))) :=
  ⟨parse_factor hfactor,
    fun hsign => parse_arguments_of_not_negative hextra hfactor hsign hb ht,
    fun hsign => parse_arguments_of_negative hextra hfactor hsign hb ht⟩

/-- A search with parameters that look like options and have quotes, and with the longest time. -/
def awkward (k : Float) : RaceSettings where
  arenaPath := "arena"
  engineParams := "--out=\"a b\" -- '"
  numGames := 0
  clock := { totalMs := 18446744073709551615, incrementMs := 0, turnMs := 1 }
  kFactor := k

theorem arguments_understood_awkward :
    ArenaOptions.parse
          (((awkward 0.1).arguments ⟨0.0, "a b", -0.0⟩ ⟨1.0, "=", -1e999⟩).map .text) =
        .ok { aPath := "a b", aParams := "--out=\"a b\" -- '", bPath := "=",
              bParams := "--out=\"a b\" -- '", numGames := 0,
              clock := { totalMs := 18446744073709551615, incrementMs := 0, turnMs := 1 },
              ratings := ⟨-0.0, -1e999, 0.1⟩ } ∧
      ∃ digit, digit.isDigit = true ∧
        ArenaOptions.parse
            (((awkward (-0.0)).arguments ⟨0.0, "a b", -0.0⟩ ⟨1.0, "=", -1e999⟩).map .text) =
          .error (.strayArgument (String.ofList ['-', digit])) := by
  have hb : Contestant.IsTellable ⟨0.0, "a b", -0.0⟩ := ⟨by decide, by decide, by decide +kernel⟩
  have ht : Contestant.IsTellable ⟨1.0, "=", -1e999⟩ := ⟨by decide, by decide, by decide +kernel⟩
  obtain ⟨-, hunderstood, -⟩ :=
    @arguments_understood (awkward 0.1) _ _ rfl (by decide +kernel) hb ht
  obtain ⟨-, -, hrefused⟩ :=
    @arguments_understood (awkward (-0.0)) _ _ rfl (by decide +kernel) hb ht
  exact ⟨hunderstood (by decide +kernel), hrefused (by decide +kernel)⟩

/-- A search takes the factor -16, and none of its matches takes place. -/
theorem arguments_misunderstood :
    (TunerOptions.parse ["--elo-k-factor=-16"]).map (fun o => o.kFactor.toBits) =
        .ok (-16.0 : Float).toBits ∧
      (ArenaOptions.parse ((RaceSettings.arguments ⟨"arena", "", 1, {}, -16.0, []⟩
        ⟨0.0, "a", 1000.0⟩ ⟨1.0, "b", 1000.0⟩).map .text)).map (fun o => o.aPath) =
        .error (.strayArgument "-1") := by
  decide +kernel

end RaceSettings

end Tuning

end EngineDuel

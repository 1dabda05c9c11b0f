import EngineDuel.Game.Clock
import EngineDuel.Match.Rating
import EngineDuel.Options.Help

/-!
# The options of a search

What the settings file may also say has no default here.
-/

namespace EngineDuel

open EngineDuel.Options

/-- The options of the program that searches. -/
structure TunerOptions where
  config : Option String := none
  engineParams : Option String := none
  targetParam : Option String := none
  start : Option Float := none
  step : Option Float := none
  stop : Option Float := none
  numGames : Option UInt32 := none
  /-- Matches are played one at a time, whatever this says. -/
  concurrency : UInt64 := 1
  buildCommand : Option String := none
  buildArtifact : Option String := none
  buildOutput : Option String := none
  buildWorkdir : Option String := none
  arenaPath : Option String := none
  clock : ClockSettings := {}
  kFactor : Float := 32.0
  arenaArgs : List String := []

namespace TunerOptions

/-- The options of the program that searches. -/
def specs : List (Spec TunerOptions) := [
  { readSpec "config" path fun s o => { o with config := some s }
    with about := "設定ファイル（TOML）。コマンドライン指定が優先される" },
  { textSpec "engine-params" fun s o => { o with engineParams := some s }
    with anyValue := true, about := "両エンジン共通の引数（空白区切り）" },
  { textSpec "target-param" fun s o => { o with targetParam := some s }
    with about := "探索対象のパラメータ名" },
  { readSpec "start" float fun x o => { o with start := some x } with anyValue := true },
  readSpec "step" float fun x o => { o with step := some x },
  { readSpec "end" float fun x o => { o with stop := some x } with anyValue := true },
  { readSpec "num-games" word32 fun n o => { o with numGames := some n }
    with about := "1回の対戦あたりの対局数" },
  { readSpec "num-concurrency" word64 fun n o => { o with concurrency := n }
    with about := "受け付けるが未使用（対戦は常に逐次実行）", standard := "1" },
  textSpec "build-command" fun s o => { o with buildCommand := some s },
  readSpec "build-artifact" path fun s o => { o with buildArtifact := some s },
  { textSpec "build-output" fun s o => { o with buildOutput := some s }
    with about := "値ごとの成果物コピー先（`\x7bparam\x7d` / `\x7bvalue\x7d` を含められる）" },
  readSpec "build-workdir" path fun s o => { o with buildWorkdir := some s },
  { readSpec "arena-path" path fun s o => { o with arenaPath := some s }
    with about := "`arena` 実行ファイル（未指定時: このバイナリと同じディレクトリ）" },
  { readSpec "total-time" word64 fun n o => { o with clock := { o.clock with totalMs := n } }
    with standard := "600000" },
  { readSpec "increment-time" word64 fun n o => { o with clock := { o.clock with incrementMs := n } }
    with standard := "10000" },
  { readSpec "turn-time" word64 fun n o => { o with clock := { o.clock with turnMs := n } }
    with standard := "100" },
  { readSpec "elo-k-factor" float fun x o => { o with kFactor := x } with standard := "32" },
  { textSpec "arena-arg" fun s o => { o with arenaArgs := o.arenaArgs ++ [s] }
    with
      repeatable := true
      anyValue := true
      placeholder := "ARENA_ARGS"
      about := "`arena` へそのまま渡す追加引数" },
  helpSpec, versionSpec]

/-- What the program says about its options. -/
def manual : Manual TunerOptions :=
  { specs, about := "Hill-climbing search over one engine build parameter" }

/-- Reads the options of the program that searches. -/
def parse (args : List RawText) : Except Refusal TunerOptions := Options.parse specs {} args

end TunerOptions

end EngineDuel

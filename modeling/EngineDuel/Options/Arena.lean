import EngineDuel.Game.Config
import EngineDuel.Match.Rating
import EngineDuel.Options.Help

/-!
# The options of a tournament
-/

namespace EngineDuel

open EngineDuel.Options

/-- The options of the program that plays tournaments. -/
structure ArenaOptions where
  aPath : RawText := ""
  aParams : String := ""
  bPath : RawText := ""
  bParams : String := ""
  numGames : UInt32 := 100
  clock : ClockSettings := {}
  ratings : Ratings := {}
  /-- The turn that ends a game; zero for none. -/
  maxTurns : UInt32 := 225
  marginMs : Option UInt64 := none
  /-- The starts of remarks to pass on, as they were given; by default a solution is passed on. -/
  echoPrefixes : List String := []
  out : Option String := none

namespace ArenaOptions

/-- The options of the program that plays tournaments. -/
def specs : List (Spec ArenaOptions) := [
  { rawPathSpec "a-path" fun s o => { o with aPath := s }
    with required := true, about := "エンジン A の実行ファイル" },
  { textSpec "a-params" fun s o => { o with aParams := s }
    with anyValue := true, about := "エンジン A の引数（空白区切り）", standard := "" },
  { rawPathSpec "b-path" fun s o => { o with bPath := s }
    with required := true, about := "エンジン B の実行ファイル" },
  { textSpec "b-params" fun s o => { o with bParams := s }
    with anyValue := true, about := "エンジン B の引数（空白区切り）", standard := "" },
  { readSpec "num-games" word32 fun n o => { o with numGames := n } with standard := "100" },
  { readSpec "total-time" word64 fun n o => { o with clock := { o.clock with totalMs := n } }
    with about := "持ち時間(ms)", standard := "600000" },
  { readSpec "increment-time" word64 fun n o => { o with clock := { o.clock with incrementMs := n } }
    with about := "1手ごとの加算(ms)", standard := "10000" },
  { readSpec "turn-time" word64 fun n o => { o with clock := { o.clock with turnMs := n } }
    with
      about := "1手の目安時間(ms)。エンジンへ通知する"
        ++ "（--timeout-margin-ms 指定時は gen の待ち時間の基準）"
      standard := "100" },
  { readSpec "a-elo" float fun x o => { o with ratings := { o.ratings with a := x } }
    with anyValue := true, standard := "1000" },
  { readSpec "b-elo" float fun x o => { o with ratings := { o.ratings with b := x } }
    with anyValue := true, standard := "1000" },
  { readSpec "elo-k-factor" float fun x o => { o with ratings := { o.ratings with k := x } }
    with standard := "32" },
  { readSpec "max-turns" word32 fun n o => { o with maxTurns := n }
    with about := "この手数に達したら引き分け（0 で無制限）", standard := "225" },
  { readSpec "timeout-margin-ms" word64 fun n o => { o with marginMs := some n }
    with
      about := "指定すると gen の待ち時間を turn-time + このマージン(ms) に絞る。"
        ++ " 未指定なら turn-time は通知のみ" },
  { textSpec "echo-prefix" fun s o => { o with echoPrefixes := o.echoPrefixes ++ [s] }
    with
      repeatable := true
      placeholder := "ECHO_PREFIXES"
      about := "gen 中の診断行のうち表示する接頭辞（複数指定可、\"\" で全て）"
      standard := "solution" },
  { readSpec "out" path fun s o => { o with out := some s } with about := "JSONL 形式の対局記録" },
  helpSpec, versionSpec]

/-- What the program says about its options. -/
def manual : Manual ArenaOptions :=
  { specs, about := "Elo arena for two text-protocol game engines" }

/-- Reads the options of the program that plays tournaments. -/
def parse (args : List RawText) : Except Refusal ArenaOptions := Options.parse specs {} args

/-- The starts of remarks that are passed on. Empty ones are left out, and if nothing is left all
remarks are passed on. -/
def shownPrefixes (o : ArenaOptions) : List String :=
  (if o.echoPrefixes.isEmpty then ["solution"] else o.echoPrefixes).filter (· ≠ "")

/-- The rules of the games. -/
def config (o : ArenaOptions) : GameConfig :=
  { clocks := ⟨o.clock, o.clock⟩
    maxTurns := if o.maxTurns = 0 then none else some o.maxTurns
    marginMs := o.marginMs
    echoPrefixes := o.shownPrefixes }

end ArenaOptions

end EngineDuel

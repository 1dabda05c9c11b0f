import EngineDuel.Options.Help
import EngineDuel.Scripted.Engine

/-!
# The options of the scripted engine
-/

namespace EngineDuel.Scripted

open EngineDuel.Options

/-- The options of the scripted engine. -/
def specs : List (Spec Scripted.Options) := [
  { readSpec "finish-after" word64 fun n o => { o with finishAfter := some n.toNat }
    with about := "この手数が打たれた時点で play の応答に勝者を返す" },
  { textSpec "winner" fun s o => { o with winner := some s }
    with about := "返す勝者テキスト（未指定時は最後に打った側の色）" },
  { readSpec "none-at" word64 fun n o => { o with noneAt := some n.toNat }
    with about := "この手数に達したら gen に none を返す" },
  { readSpec "stall-at" word64 fun n o => { o with stallAt := some n.toNat }
    with about := "この手数に達したら gen に応答しない" },
  { readSpec "think-ms" word64 fun n o => { o with thinkMs := n }
    with about := "gen 1回ごとの思考時間(ms)", standard := "0" },
  { name := "chatter", effect := .switch fun o => { o with chatter := true }
    about := "gen の前に診断行を出す" },
  { textSpec "reject" fun s o => { o with reject := some s }
    with about := "このコマンドに `?` で応答する" },
  { readSpec "pid-file" path fun s o => { o with pidFile := some s }
    with about := "起動時に自身の pid を書き出す" },
  helpSpec]

/-- What the engine says about its options. -/
def manual : Manual Scripted.Options :=
  { specs, about := "Deterministic engine speaking the arena line protocol" }

/-- Reads the options of the scripted engine. -/
def parseOptions (args : List RawText) : Except Refusal Scripted.Options := parse specs {} args

end EngineDuel.Scripted

import EngineDuel.Calendar
import EngineDuel.Counter
import EngineDuel.Duration
import EngineDuel.Failure
import EngineDuel.Game.Clock
import EngineDuel.Game.Config
import EngineDuel.Game.Declaration
import EngineDuel.Game.Engine
import EngineDuel.Game.EngineConfig
import EngineDuel.Game.Error
import EngineDuel.Game.Play
import EngineDuel.Game.Record
import EngineDuel.Game.Rehearsed
import EngineDuel.Game.Side
import EngineDuel.Host.Arena
import EngineDuel.Host.Build
import EngineDuel.Host.Condition
import EngineDuel.Host.Fault
import EngineDuel.Host.Launch
import EngineDuel.Host.Path
import EngineDuel.Host.Printf
import EngineDuel.Host.Race
import EngineDuel.Host.Records
import EngineDuel.Host.RunningEngine
import EngineDuel.Host.ScriptedProgram
import EngineDuel.Host.Shell.Arithmetic
import EngineDuel.Host.Shell.Builtin
import EngineDuel.Host.Shell.Expand
import EngineDuel.Host.Shell.Pattern
import EngineDuel.Host.Shell.Run
import EngineDuel.Host.Shell.Script
import EngineDuel.Host.Shell.State
import EngineDuel.Host.Shell.Token
import EngineDuel.Host.Shell.Word
import EngineDuel.Host.Task
import EngineDuel.Host.Tool
import EngineDuel.Host.Tuner
import EngineDuel.Host.Work
import EngineDuel.Host.Workspace
import EngineDuel.Json.Decode
import EngineDuel.Json.Forms
import EngineDuel.Json.Read
import EngineDuel.Json.Token
import EngineDuel.Json.Value
import EngineDuel.Json.Write
import EngineDuel.Log
import EngineDuel.Main
import EngineDuel.Match.Rating
import EngineDuel.Match.Standings
import EngineDuel.Match.Tournament
import EngineDuel.Number.Binary64
import EngineDuel.Number.Layout
import EngineDuel.Number.Numeral
import EngineDuel.Number.Shortest
import EngineDuel.Options.Arena
import EngineDuel.Options.Grammar
import EngineDuel.Options.Help
import EngineDuel.Options.Scripted
import EngineDuel.Options.Tuner
import EngineDuel.Options.Value
import EngineDuel.Proofs.Game.Course
import EngineDuel.Proofs.Game.Parts
import EngineDuel.Proofs.Game.Requests
import EngineDuel.Report.FinalLine
import EngineDuel.Report.GameFile
import EngineDuel.Report.GameLines
import EngineDuel.Scripted.Engine
import EngineDuel.Text.Blank
import EngineDuel.Text.Digit
import EngineDuel.Text.Lines
import EngineDuel.Text.Printable
import EngineDuel.Text.Quoted
import EngineDuel.Text.Ranges
import EngineDuel.Text.Raw
import EngineDuel.Text.ShellWords
import EngineDuel.Text.Similarity
import EngineDuel.Text.Word
import EngineDuel.Toml.Read
import EngineDuel.Toml.Scalar
import EngineDuel.Toml.Value
import EngineDuel.Tuning.BuildSettings
import EngineDuel.Tuning.Climb
import EngineDuel.Tuning.RaceOutput
import EngineDuel.Tuning.RaceSettings
import EngineDuel.Tuning.Range
import EngineDuel.Tuning.SettingsFile
import EngineDuel.Tuning.Table
import EngineDuel.Wire.Client
import EngineDuel.Wire.Inbox
import EngineDuel.Wire.Pipe
import EngineDuel.Wire.Reader
import EngineDuel.Wire.Reply
import EngineDuel.Wire.Session
import EngineDuel.Proofs.Game.RequestOrder
import EngineDuel.Proofs.Game.Verdict
import EngineDuel.Proofs.Game.Failures
import EngineDuel.Proofs.Game.Silence
import EngineDuel.Proofs.Game.ToldMoves
import EngineDuel.Proofs.Game.Discipline
import EngineDuel.Proofs.Text.Trim
import EngineDuel.Proofs.Wire.Segments
import EngineDuel.Proofs.Wire.InStep
import EngineDuel.Proofs.Match.Calls
import EngineDuel.Proofs.Match.Resumption
import EngineDuel.Proofs.Number.Patterns
import EngineDuel.Proofs.Number.Order
import EngineDuel.Proofs.Tuning.Candidates
import EngineDuel.Proofs.Tuning.Table
import EngineDuel.Proofs.Tuning.Calls
import EngineDuel.Proofs.Tuning.Course
import EngineDuel.Proofs.Tuning.CallOrder
import EngineDuel.Proofs.Tuning.Finding
import EngineDuel.Proofs.Number.Rounding
import EngineDuel.Proofs.Number.ReadBack
import EngineDuel.Proofs.Text.Lines
import EngineDuel.Proofs.Report.FinalLine
import EngineDuel.Proofs.Host.Race
import EngineDuel.Proofs.Game.ClockAccounts
import EngineDuel.Proofs.Game.Mirror
import EngineDuel.Proofs.Wire.Delivery
import EngineDuel.Proofs.Game.Exchanges
import EngineDuel.Proofs.Wire.Answers
import EngineDuel.Proofs.Wire.CommandLines
import EngineDuel.Proofs.Text.Words
import EngineDuel.Proofs.Scripted.Fields
import EngineDuel.Proofs.Scripted.Replies
import EngineDuel.Proofs.Scripted.Sessions
import EngineDuel.Proofs.Scripted.Lockstep
import EngineDuel.Proofs.Scripted.Duel
import EngineDuel.Proofs.Match.Sums
import EngineDuel.Proofs.Options.Settings
import EngineDuel.Proofs.Tuning.Arguments
import EngineDuel.Proofs.Scripted.Conversation
import EngineDuel.Proofs.Json.Tokens
import EngineDuel.Proofs.Json.RoundTrip
import EngineDuel.Proofs.Json.Numbers
import EngineDuel.Proofs.Report.GameFile
import EngineDuel.Proofs.Host.Files
import EngineDuel.Proofs.Host.Records
import EngineDuel.Proofs.Wire.Quota
import EngineDuel.Proofs.Wire.Verbatim
import EngineDuel.Proofs.Wire.Transparent
import EngineDuel.Proofs.Wire.Remarks
import EngineDuel.Proofs.Game.Remarks
import EngineDuel.Proofs.Game.Ceiling
import EngineDuel.Proofs.Report.Grammar
import EngineDuel.Proofs.Wire.Reader
import EngineDuel.Proofs.Tuning.Templates
import EngineDuel.Proofs.Host.Ways
import EngineDuel.Proofs.Host.Copies
import EngineDuel.Proofs.Host.EngineFiles
import EngineDuel.Proofs.Tuning.Entries
import EngineDuel.Proofs.Number.TotalOrder
import EngineDuel.Proofs.Host.ShownRemarks

import Recital.Binary64
import Recital.Bus
import Recital.Command.Argument
import Recital.Command.Basic
import Recital.Command.Failure
import Recital.Command.Ledger
import Recital.Command.Rehearsed
import Recital.Context
import Recital.Decimal.Reader
import Recital.Decimal.Shortest
import Recital.Files.Path
import Recital.Files.Tree
import Recital.Invocation
import Recital.Json.Basic
import Recital.Json.Draft
import Recital.Json.Printer
import Recital.Json.Reader
import Recital.Json.Shape
import Recital.Main
import Recital.Playback.Cell
import Recital.Playback.Event
import Recital.Playback.Fault
import Recital.Playback.Flow
import Recital.Playback.Recovery
import Recital.Playback.Snapshot
import Recital.Playback.State
import Recital.Player.Basic
import Recital.Player.Control
import Recital.Player.Host
import Recital.Player.Line
import Recital.Player.Lock
import Recital.Player.Refusal
import Recital.Player.Request
import Recital.Player.Trial
import Recital.Policy.Backoff
import Recital.Policy.Basic
import Recital.Policy.Config
import Recital.Program
import Recital.Proofs.Inevitable
import Recital.Proofs.Player.Alone
import Recital.Proofs.Player.Gist
import Recital.Proofs.Player.Line
import Recital.Proofs.Player.Round
import Recital.Proofs.Script.Builtin
import Recital.Proofs.Script.Labels
import Recital.Script.Basic
import Recital.Script.Parser
import Recital.Script.Shelf
import Recital.Script.Survey
import Recital.Session
import Recital.Settings.Expansion
import Recital.Settings.Load
import Recital.Settings.Shape
import Recital.Store.Basic
import Recital.Table
import Recital.Tally
import Recital.Text.Blank
import Recital.Text.Extending
import Recital.Text.Graphic
import Recital.Text.Numeral
import Recital.Time.Instant
import Recital.Time.Span
import Recital.Yaml.Basic
import Recital.Yaml.Block
import Recital.Yaml.Cursor
import Recital.Yaml.Document
import Recital.Yaml.Lexer
import Recital.Yaml.Node
import Recital.Yaml.Outline
import Recital.Yaml.Plain
import Recital.Yaml.Quoted
import Recital.Yaml.Scalar
import Recital.Yaml.Token
import Recital.Proofs.Machine.Basic
import Recital.Proofs.Machine.Simulation
import Recital.Proofs.Machine.Reference
import Recital.Proofs.Machine.Resume
import Recital.Proofs.Machine.Faultless
import Recital.Proofs.Recovery.Budget
import Recital.Proofs.Recovery.Termination
import Recital.Proofs.Place.Context
import Recital.Proofs.Place.Line
import Recital.Proofs.Place.Request
import Recital.Proofs.Place.Session
import Recital.Proofs.Player.Bearing
import Recital.Proofs.Player.Between
import Recital.Proofs.Player.Turn
import Recital.Proofs.Player.Orderly
import Recital.Proofs.Session.Solo
import Recital.Proofs.Session.Pause
import Recital.Proofs.Session.Finish
import Recital.Proofs.Twin.Basic
import Recital.Proofs.Twin.Line
import Recital.Proofs.Twin.Loop
import Recital.Proofs.Twin.Transparency
import Recital.Proofs.Player.LineEnds
import Recital.Proofs.Twin.Walk
import Recital.Proofs.Twin.Stepping
import Recital.Proofs.Player.LineFrame
import Recital.Proofs.Player.PlaybackEnd
import Recital.Proofs.Player.BeforeLines
import Recital.Proofs.Session.Breakpoint
import Recital.Proofs.Session.Outcome
import Recital.Proofs.Session.Ownership
import Recital.Proofs.Session.Isolation
import Recital.Proofs.Session.Locks
import Recital.Proofs.Twin.Past
import Recital.Proofs.Session.History
import Recital.Proofs.Player.Course
import Recital.Proofs.Player.FollowsCourse
import Recital.Proofs.Player.BesideLines
import Recital.Proofs.Player.RequestStep
import Recital.Proofs.Player.Scene
import Recital.Proofs.Player.StateFollows
import Recital.Proofs.Session.OpenBus
import Recital.Proofs.Session.Account
import Recital.Proofs.Session.EventTrace
import Recital.Proofs.Session.Checkpoint
import Recital.Proofs.Session.Waiting
import Recital.Proofs.Player.LastingChange
import Recital.Proofs.Player.RequestChanges
import Recital.Proofs.Session.StatePath
import Recital.Proofs.Store.Tree
import Recital.Proofs.Store.Documents
import Recital.Proofs.Session.Refused
import Recital.Proofs.Player.Lapse
import Recital.Proofs.Session.PassedFaults
import Recital.Proofs.Decimal.Rounding
import Recital.Proofs.Decimal.Shortest
import Recital.Proofs.Json.Drafted
import Recital.Proofs.Script.Values
import Recital.Proofs.Session.SavedFile
import Recital.Proofs.Session.SavedSnapshot
import Recital.Proofs.Store.Agreement
import Recital.Proofs.Store.Interruption
import Recital.Proofs.Session.Autosave
import Recital.Proofs.Files.Route
import Recital.Proofs.Settings.Depth
import Recital.Proofs.Settings.Placement
import Recital.Proofs.Files.Spelling
import Recital.Proofs.Settings.Nesting
import Recital.Proofs.Settings.Cycle
import Recital.Proofs.Json.Record
import Recital.Proofs.Place.Release
import Recital.Proofs.Playback.Record
import Recital.Proofs.Policy.Record
import Recital.Proofs.Playback.Event
import Recital.Proofs.Session.DecodableEvents
import Recital.Proofs.Bus.Hearing
import Recital.Proofs.Player.FlowAction
import Recital.Proofs.Player.Attempts
import Recital.Proofs.Player.LineBudget
import Recital.Proofs.Session.RollbackBudget
import Recital.Proofs.Text.Blank
import Recital.Proofs.Text.Lines
import Recital.Proofs.Text.Numeral
import Recital.Proofs.Script.Reading
import Recital.Proofs.Script.Layout
import Recital.Proofs.Script.Grammar
import Recital.Proofs.Script.Reference
import Recital.Proofs.Files.Component
import Recital.Proofs.Settings.Refusal
import Recital.Proofs.Settings.Substitution
import Recital.Proofs.Script.Survey
import Recital.Proofs.Script.Shelf
import Recital.Proofs.Store.Confinement
import Recital.Proofs.Policy.Backoff
import Recital.Proofs.Session.Flight
import Recital.Proofs.Command.Ledger
import Recital.Proofs.Player.Totals
import Recital.Proofs.Session.Balance

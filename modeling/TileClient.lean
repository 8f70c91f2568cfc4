import TileClient.Board.Direction
import TileClient.Board.Grid
import TileClient.Board.Snapshot
import TileClient.Board.Walk
import TileClient.CommandLine.Flag
import TileClient.CommandLine.Launch
import TileClient.CommandLine.Reader
import TileClient.DirectoryAddress
import TileClient.Discovery
import TileClient.Endpoint
import TileClient.EventBus
import TileClient.Fault
import TileClient.Game.Controller
import TileClient.Game.Frame
import TileClient.Game.Replica
import TileClient.Input.Autoplay
import TileClient.Input.Command
import TileClient.Input.Dispatcher
import TileClient.Input.MoveSource
import TileClient.Input.Pending
import TileClient.Input.Script
import TileClient.Json.Complaint
import TileClient.Json.Literal
import TileClient.Json.Record
import TileClient.Json.Token
import TileClient.Json.Value
import TileClient.Main
import TileClient.Play
import TileClient.Proofs.Address.Directory
import TileClient.Proofs.Address.Endpoint
import TileClient.Proofs.Board.Content
import TileClient.Proofs.Board.FiniteMap
import TileClient.Proofs.Board.Indexing
import TileClient.Proofs.Board.Loading
import TileClient.Proofs.Board.Mobility
import TileClient.Proofs.Board.Rebuilding
import TileClient.Proofs.Board.Scanning
import TileClient.Proofs.Board.Shape
import TileClient.Proofs.Board.Snapshot
import TileClient.Proofs.Board.Walking
import TileClient.Proofs.EventBus.Roll
import TileClient.Proofs.Game.Drawing
import TileClient.Proofs.Game.Forgetting
import TileClient.Proofs.Game.History
import TileClient.Proofs.Game.Transcript
import TileClient.Proofs.Input.Account
import TileClient.Proofs.Input.Coalescing
import TileClient.Proofs.Input.Performance
import TileClient.Proofs.Input.Recital
import TileClient.Proofs.Input.Script
import TileClient.Proofs.Json.Grammar
import TileClient.Proofs.Json.Literal
import TileClient.Proofs.Json.Meaning
import TileClient.Proofs.Json.Number
import TileClient.Proofs.Json.Record
import TileClient.Proofs.Json.Token
import TileClient.Proofs.Json.Value
import TileClient.Proofs.Play.Farewell
import TileClient.Proofs.Play.Handoff
import TileClient.Proofs.Play.Lifecycle
import TileClient.Proofs.Play.Moves
import TileClient.Proofs.Play.Noninterference
import TileClient.Proofs.Play.Tour
import TileClient.Proofs.Play.Wiring
import TileClient.Proofs.Rehearsal.Clockwork
import TileClient.Proofs.Rehearsal.Custody
import TileClient.Proofs.Rehearsal.Delivery
import TileClient.Proofs.Rehearsal.Forwarding
import TileClient.Proofs.Rehearsal.Lines
import TileClient.Proofs.Rehearsal.Outbox
import TileClient.Proofs.Rehearsal.Schedule
import TileClient.Proofs.Rehearsal.Search
import TileClient.Proofs.Rehearsal.Timeline
import TileClient.Proofs.Rehearsal.Turns
import TileClient.Proofs.Rehearsal.World
import TileClient.Proofs.Session.Audience
import TileClient.Proofs.Session.Coherence
import TileClient.Proofs.Session.Finality
import TileClient.Proofs.Session.Journal
import TileClient.Proofs.Session.Supersession
import TileClient.Proofs.Session.Transition
import TileClient.Proofs.Text.Blank
import TileClient.Proofs.Text.Delimited
import TileClient.Proofs.Text.Numeral
import TileClient.Proofs.Wire.Members
import TileClient.Proofs.Wire.RoundTrip
import TileClient.Rehearsal.Acts
import TileClient.Rehearsal.Backstage
import TileClient.Rehearsal.Link
import TileClient.Rehearsal.Stage
import TileClient.Rehearsal.Task
import TileClient.Session.Basic
import TileClient.Session.Connection
import TileClient.Session.Message
import TileClient.Settings
import TileClient.Text.Blank
import TileClient.Text.Numeral
import TileClient.Text.Quoted
import TileClient.Text.Span
import TileClient.Text.Split
import TileClient.Text.Unprintable
import TileClient.Wire.Move
import TileClient.Wire.Reply
import TileClient.Wire.Update
import TileClient.Proofs.Board.Matching

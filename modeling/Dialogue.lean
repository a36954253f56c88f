import Dialogue.Actions.Endpoint
import Dialogue.Actions.Fields
import Dialogue.Actions.Input
import Dialogue.Actions.Library
import Dialogue.Actions.Menus
import Dialogue.Actions.Output
import Dialogue.Actions.Storage
import Dialogue.Calendar.Date
import Dialogue.Calendar.Moment
import Dialogue.Calendar.Parser
import Dialogue.Calendar.Parts
import Dialogue.Calendar.Pattern
import Dialogue.Calendar.Printer
import Dialogue.Calendar.Spelling
import Dialogue.Calendar.Unit
import Dialogue.Callbacks
import Dialogue.Clock.Nanos
import Dialogue.CommandLine
import Dialogue.Console
import Dialogue.Decimal.Count
import Dialogue.Decimal.Layout
import Dialogue.Decimal.Reading
import Dialogue.Decimal.Shortest
import Dialogue.Decimal.Whole
import Dialogue.Endpoint
import Dialogue.Engine.Basic
import Dialogue.Engine.Context
import Dialogue.Engine.Dispatch
import Dialogue.Engine.Interpolation
import Dialogue.Engine.Routing
import Dialogue.Engine.Shorthand
import Dialogue.Engine.Standard
import Dialogue.Engine.Template
import Dialogue.Engine.Variables
import Dialogue.Event
import Dialogue.Failure
import Dialogue.Files.Access
import Dialogue.Files.Location
import Dialogue.Files.Tree
import Dialogue.Functions.Arithmetic
import Dialogue.Functions.Collections
import Dialogue.Functions.Dates
import Dialogue.Functions.Library
import Dialogue.Functions.Logic
import Dialogue.Functions.Parameters
import Dialogue.Host
import Dialogue.Json.Decoder
import Dialogue.Json.Document
import Dialogue.Json.Printer
import Dialogue.Json.Reader
import Dialogue.Json.Value
import Dialogue.Keyed
import Dialogue.Loading
import Dialogue.Outbox
import Dialogue.Proofs.Actions
import Dialogue.Proofs.Assembly
import Dialogue.Proofs.Borrowing
import Dialogue.Proofs.Calls
import Dialogue.Proofs.Containment
import Dialogue.Proofs.Dispatch
import Dialogue.Proofs.Effects
import Dialogue.Proofs.Evaluation
import Dialogue.Proofs.Failures
import Dialogue.Proofs.Frame
import Dialogue.Proofs.Functions
import Dialogue.Proofs.Interpolation
import Dialogue.Proofs.Keyed
import Dialogue.Proofs.Nesting
import Dialogue.Proofs.Shorthand
import Dialogue.Proofs.Templates
import Dialogue.Proofs.Tokens
import Dialogue.Proofs.UnknownNames
import Dialogue.Proofs.Variables
import Dialogue.Proofs.Visibility
import Dialogue.Proofs.Weight
import Dialogue.Scenario
import Dialogue.Scope
import Dialogue.Session.Agenda
import Dialogue.Session.Awaiting
import Dialogue.Session.Basic
import Dialogue.Session.Navigation
import Dialogue.Session.Storage
import Dialogue.Session.Store
import Dialogue.Settings
import Dialogue.Text.Blank
import Dialogue.Value.Coercion
import Dialogue.Value.Descriptor
import Dialogue.Value.Equality
import Dialogue.Value.Path
import Dialogue.Main
import Dialogue.Proofs.Lasting
import Dialogue.Proofs.Runs
import Dialogue.Proofs.BackStack
import Dialogue.Proofs.Whereabouts
import Dialogue.Proofs.WaitingRoom
import Dialogue.Proofs.Rooms
import Dialogue.Proofs.Timeouts
import Dialogue.Proofs.CancelButtons
import Dialogue.Proofs.Keyboards
import Dialogue.Proofs.Conservation
import Dialogue.Proofs.EffectQueue
import Dialogue.Proofs.TimeoutReports
import Dialogue.Proofs.Isolation
import Dialogue.Proofs.LiveMessages
import Dialogue.Proofs.References
import Dialogue.Proofs.Reading
import Dialogue.Proofs.Retention
import Dialogue.Proofs.Asking
import Dialogue.Proofs.Copying
import Dialogue.Proofs.Paths
import Dialogue.Proofs.Captures
import Dialogue.Proofs.PathLaws
import Dialogue.Proofs.ReadValues
import Dialogue.Proofs.Snapshots
import Dialogue.Proofs.Slots
import Dialogue.Proofs.Choices
import Dialogue.Proofs.Days
import Dialogue.Proofs.Moments
import Dialogue.Proofs.Months
import Dialogue.Proofs.Rounding
import Dialogue.Proofs.WholeFloats
import Dialogue.Proofs.Integers
import Dialogue.Proofs.Stamps
import Dialogue.Proofs.Spans
import Dialogue.Proofs.FlatStorage
import Dialogue.Proofs.Sweeps
import Dialogue.Proofs.IdleEviction
import Dialogue.Proofs.Locations
import Dialogue.Proofs.ScenarioDirectories
import Dialogue.Proofs.EndpointCalls
import Dialogue.Proofs.ClearedAnswers
import Dialogue.Proofs.FirstContact
import Dialogue.Proofs.Remaining
import Dialogue.Proofs.Decoders
import Dialogue.Proofs.NumberedButtons
import Dialogue.Proofs.WrittenForms
import Dialogue.Proofs.WrittenCalls

import Playscript.Action
import Playscript.Area
import Playscript.Campaign
import Playscript.Campaign.Operation
import Playscript.Catalog.Basic
import Playscript.Catalog.Builtin
import Playscript.Catalog.Document
import Playscript.Catalog.Fault
import Playscript.Catalog.Loading
import Playscript.Coordinate
import Playscript.Decimal.Layout
import Playscript.Decimal.Numeral
import Playscript.Decimal.Scientific
import Playscript.Decimal.Shortest
import Playscript.Document.Json
import Playscript.Document.Toml
import Playscript.Document.Tree
import Playscript.Document.Value
import Playscript.Duration
import Playscript.Enemy.Schedule
import Playscript.Failure
import Playscript.Files
import Playscript.Launch
import Playscript.Level.Basic
import Playscript.Level.Kind
import Playscript.Level.Requirement
import Playscript.Main
import Playscript.Prompt.Basic
import Playscript.Prompt.Command
import Playscript.Prompt.Item
import Playscript.Prompt.Transcript
import Playscript.Proofs.Campaign.Entering
import Playscript.Proofs.Campaign.Finishing
import Playscript.Proofs.Campaign.Journey
import Playscript.Proofs.Campaign.Refusal
import Playscript.Proofs.Campaign.Unlocking
import Playscript.Proofs.Catalog.Consistency
import Playscript.Proofs.Catalog.Survival
import Playscript.Proofs.Catalog.Validity
import Playscript.Proofs.Document.Double
import Playscript.Proofs.Document.Survival
import Playscript.Proofs.Enemy.Course
import Playscript.Proofs.Enemy.Timing
import Playscript.Proofs.Prompt.Choosing
import Playscript.Proofs.Prompt.Conversation
import Playscript.Proofs.Prompt.Relay
import Playscript.Proofs.Prompt.Requests
import Playscript.Proofs.Run.Accounting
import Playscript.Proofs.Run.Bounds
import Playscript.Proofs.Run.Checked
import Playscript.Proofs.Run.Coherence
import Playscript.Proofs.Run.Failing
import Playscript.Proofs.Run.Law
import Playscript.Proofs.Run.Licence
import Playscript.Proofs.Run.Pacing
import Playscript.Proofs.Run.Scenery
import Playscript.Proofs.Run.Shots
import Playscript.Proofs.Run.Stepping
import Playscript.Proofs.Run.Techniques
import Playscript.Proofs.Run.Unrolling
import Playscript.Proofs.Script.Balance
import Playscript.Proofs.Script.Comment
import Playscript.Proofs.Script.Continuation
import Playscript.Proofs.Script.Coverage
import Playscript.Proofs.Script.Cutting
import Playscript.Proofs.Script.Form
import Playscript.Proofs.Script.Line
import Playscript.Proofs.Script.LineEnding
import Playscript.Proofs.Script.LineNumber
import Playscript.Proofs.Script.Locality
import Playscript.Proofs.Script.Nesting
import Playscript.Proofs.Script.Origin
import Playscript.Proofs.Script.Pieces
import Playscript.Proofs.Script.Position
import Playscript.Proofs.Script.Reading
import Playscript.Proofs.Script.Rendering
import Playscript.Proofs.Script.RoundTrip
import Playscript.Proofs.Script.Shape
import Playscript.Proofs.Script.Spacing
import Playscript.Proofs.Script.Token
import Playscript.Proofs.Session.Accounting
import Playscript.Proofs.Session.Attempt
import Playscript.Proofs.Session.Bounds
import Playscript.Proofs.Session.Clearance
import Playscript.Proofs.Session.Completion
import Playscript.Proofs.Session.Delivery
import Playscript.Proofs.Session.EnemyClock
import Playscript.Proofs.Session.Hearing
import Playscript.Proofs.Session.History
import Playscript.Proofs.Session.Nearness
import Playscript.Proofs.Session.Pausing
import Playscript.Proofs.Session.Renewal
import Playscript.Proofs.Session.Replay
import Playscript.Proofs.Session.Shots
import Playscript.Proofs.Session.Speed
import Playscript.Proofs.Session.Step
import Playscript.Proofs.Session.Story
import Playscript.Proofs.Session.Techniques
import Playscript.Proofs.Session.Ticketing
import Playscript.Run.Completion
import Playscript.Run.Event
import Playscript.Run.Execution
import Playscript.Run.Issue
import Playscript.Run.Loop
import Playscript.Run.Scene
import Playscript.Run.Statement
import Playscript.Run.Techniques
import Playscript.Run.Variables
import Playscript.Script.Check
import Playscript.Script.Comment
import Playscript.Script.Expectation
import Playscript.Script.Grammar
import Playscript.Script.Recognizer
import Playscript.Script.Segment
import Playscript.Script.Statement
import Playscript.Session.Basic
import Playscript.Session.Error
import Playscript.Session.Operation
import Playscript.Settings
import Playscript.Stage
import Playscript.Text.Blank
import Playscript.Text.Case
import Playscript.Text.Filling
import Playscript.Text.LineBreak
import Playscript.Text.Lines
import Playscript.Text.Padding
import Playscript.Text.Position
import Playscript.Text.Style
import Playscript.Text.Terminal
import Playscript.World.Basic
import Playscript.World.Snapshot

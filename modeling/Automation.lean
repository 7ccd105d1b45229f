import Automation.Keyed
import Automation.Text.Upper
import Automation.Json.Decoder
import Automation.Template
import Automation.Chat.Completion
import Automation.Comparison
import Automation.Http.Url
import Automation.Instant
import Automation.Failure
import Automation.Flow
import Automation.Node.Config
import Automation.Run.Engine
import Automation.Rehearsal
import Automation.Sql.Statement
import Automation.Graph.Validation
import Automation.Config
import Automation.Config.File
import Automation.Main
import Automation.EventStream.Source
import Automation.Proofs.Traversal.DepthFirst
import Automation.Proofs.Traversal.Calls
import Automation.Proofs.Traversal.Reachable
import Automation.Proofs.Traversal.History
import Automation.Proofs.Graph.Cycle
import Automation.Proofs.Graph.Turns
import Automation.Proofs.Checks
import Automation.Proofs.Keyed
import Automation.Proofs.Json.Slots
import Automation.Proofs.Node.Config
import Automation.Proofs.Graph.Validation
import Automation.Proofs.Text.Utf8
import Automation.Proofs.Text.Order
import Automation.Proofs.EventStream.Chunks
import Automation.Proofs.Sql.Assembly
import Automation.Proofs.Sql.Scope
import Automation.Proofs.Sql.Checked
import Automation.Proofs.Traversal.Validated
import Automation.Proofs.Traversal.Cancellation
import Automation.Proofs.Run.Effects
import Automation.Proofs.Traversal.Handle
import Automation.Proofs.Traversal.Overlay
import Automation.Proofs.Traversal.Transcript
import Automation.Proofs.Traversal.Policies
import Automation.Proofs.Number.Decimal
import Automation.Proofs.Number.Numeral
import Automation.Proofs.Json.Reading
import Automation.Proofs.Json.Decoding
import Automation.Proofs.Flow.Wire
import Automation.Proofs.Instant.Calendar
import Automation.Proofs.Instant.Clock
import Automation.Proofs.Instant.Column
import Automation.Proofs.Instant.Text
import Automation.Proofs.Instant.Order
import Automation.Proofs.Store.Row
import Automation.Proofs.Store.Table
import Automation.Proofs.Store.History
import Automation.Proofs.Store.Listing
import Automation.Proofs.Credential.Wire
import Automation.Proofs.Store.Credentials
import Automation.Proofs.Run.Saved
import Automation.Proofs.EventStream.Written
import Automation.Proofs.Chat.Streamed
import Automation.Proofs.Run.Questions
import Automation.Proofs.Json.Stable
import Automation.Proofs.Json.Depth
import Automation.Proofs.Flow.RoundTrip
import Automation.Proofs.Node.Encoding
import Automation.Proofs.CommandLine.Surroundings
import Automation.Proofs.CommandLine.Save
import Automation.Proofs.Template.Binding
import Automation.Proofs.Sql.Shape
import Automation.Proofs.Sql.Placeholders
import Automation.Proofs.Sql.Unambiguous
import Automation.Proofs.Config.References
import Automation.Proofs.EventStream.Delivery
import Automation.Proofs.Run.BaseUrl
import Automation.Proofs.Run.HeaderLines
import Automation.Proofs.Text.Ascii
import Automation.Proofs.Comparison.Numeric
import Automation.Proofs.Comparison.Beginning
import Automation.Proofs.Text.Blank
import Automation.Proofs.Comparison.NumberText
import Automation.Proofs.Comparison.Laws
import Automation.Proofs.Run.Body
import Automation.Proofs.Run.Keys
import Automation.Proofs.Number.Order
import Automation.Proofs.Node.Delay
import Automation.Proofs.Database.Cell
import Automation.Proofs.Traversal.Allowance
import Automation.Proofs.Json.Members

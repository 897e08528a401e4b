import TradingRules.Assoc
import TradingRules.Condition.Basic
import TradingRules.Condition.Check
import TradingRules.Condition.Decode
import TradingRules.Condition.Display
import TradingRules.Condition.Edit
import TradingRules.Condition.Issue
import TradingRules.Condition.Legacy
import TradingRules.Condition.Path
import TradingRules.Condition.Placeholder
import TradingRules.Condition.Wire
import TradingRules.Config.Check
import TradingRules.Config.Environment
import TradingRules.Config.Layer
import TradingRules.Config.Logging
import TradingRules.Config.Settings
import TradingRules.Decimal.Binary
import TradingRules.Decimal.Nearest
import TradingRules.Decimal.Shortest
import TradingRules.Decimal.Style
import TradingRules.Engine.Basic
import TradingRules.Engine.Recorded
import TradingRules.Engine.Result
import TradingRules.Evaluation.Basic
import TradingRules.Evaluation.Compare
import TradingRules.Evaluation.Trace
import TradingRules.History.Basic
import TradingRules.History.Frame
import TradingRules.History.Replay
import TradingRules.History.Series
import TradingRules.Json.Message
import TradingRules.Json.Printer
import TradingRules.Json.Reader
import TradingRules.Json.Value
import TradingRules.Market.Reading
import TradingRules.Market.Snapshot
import TradingRules.Market.Window
import TradingRules.Position.Metric
import TradingRules.Position.Tracker
import TradingRules.Proofs.Checked
import TradingRules.Proofs.Condition.Complete
import TradingRules.Proofs.Condition.Leaves
import TradingRules.Proofs.Condition.Messages
import TradingRules.Proofs.Config.Installed
import TradingRules.Proofs.Config.Loading
import TradingRules.Proofs.Config.Precedence
import TradingRules.Proofs.Config.Reported
import TradingRules.Proofs.Config.Sections
import TradingRules.Proofs.Config.Variables
import TradingRules.Proofs.Decimal.Numeral
import TradingRules.Proofs.Editing.Children
import TradingRules.Proofs.Editing.Depth
import TradingRules.Proofs.Editing.Graft
import TradingRules.Proofs.Editing.Lens
import TradingRules.Proofs.Editing.Monotone
import TradingRules.Proofs.Editing.Obstacles
import TradingRules.Proofs.Editing.Reachable
import TradingRules.Proofs.Editing.Siblings
import TradingRules.Proofs.Engine.Attribution
import TradingRules.Proofs.Engine.Containment
import TradingRules.Proofs.Engine.Loaded
import TradingRules.Proofs.Engine.Recorded
import TradingRules.Proofs.Engine.Selection
import TradingRules.Proofs.Engine.Session
import TradingRules.Proofs.Evaluation.Alike
import TradingRules.Proofs.Evaluation.Crossings
import TradingRules.Proofs.Evaluation.Faithful
import TradingRules.Proofs.Evaluation.Faults
import TradingRules.Proofs.Evaluation.Gaps
import TradingRules.Proofs.Evaluation.Incomplete
import TradingRules.Proofs.Evaluation.Locality
import TradingRules.Proofs.Evaluation.Range
import TradingRules.Proofs.Evaluation.Window
import TradingRules.Proofs.Fallible
import TradingRules.Proofs.History.Agreement
import TradingRules.Proofs.History.Alternation
import TradingRules.Proofs.History.Course
import TradingRules.Proofs.History.Crossing
import TradingRules.Proofs.History.DefaultWindow
import TradingRules.Proofs.History.Failure
import TradingRules.Proofs.History.Holding
import TradingRules.Proofs.History.LastTrue
import TradingRules.Proofs.History.Listing
import TradingRules.Proofs.History.Metrics
import TradingRules.Proofs.History.Prefix
import TradingRules.Proofs.History.Readings
import TradingRules.Proofs.History.Recorded
import TradingRules.Proofs.History.Replay
import TradingRules.Proofs.History.Rows
import TradingRules.Proofs.History.Series
import TradingRules.Proofs.Json.Numbers
import TradingRules.Proofs.Json.RoundTrip
import TradingRules.Proofs.Json.Strings
import TradingRules.Proofs.Market.Order
import TradingRules.Proofs.Market.Rolling
import TradingRules.Proofs.Market.Sliding
import TradingRules.Proofs.Position.Bounds
import TradingRules.Proofs.Position.Observation
import TradingRules.Proofs.Rule.Deployable
import TradingRules.Proofs.Rule.Priority
import TradingRules.Proofs.Storage.Conditions
import TradingRules.Proofs.Storage.Offsets
import TradingRules.Proofs.Storage.Reported
import TradingRules.Proofs.Storage.Rules
import TradingRules.Proofs.Storage.Spelling
import TradingRules.Proofs.Storage.Tagged
import TradingRules.Proofs.Storage.Text
import TradingRules.Proofs.Storage.Untagged
import TradingRules.Proofs.Storage.Upgrade
import TradingRules.Proofs.Text.Numeral
import TradingRules.Rule.Agreement
import TradingRules.Rule.Basic
import TradingRules.Rule.Check
import TradingRules.Rule.Storage
import TradingRules.Rule.Wire
import TradingRules.Text.Blank
import TradingRules.Text.Capital
import TradingRules.Text.Digit
import TradingRules.Text.Hidden
import TradingRules.Text.Numeral
import TradingRules.Text.Quoted
import TradingRules.Text.Word
import TradingRules.Timestamp

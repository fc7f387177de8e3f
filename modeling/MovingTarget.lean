import MovingTarget.Decimal.Double
import MovingTarget.Decimal.Numeral
import MovingTarget.Decision.Basic
import MovingTarget.Decision.Codec
import MovingTarget.DomainSummary
import MovingTarget.Engine.Basic
import MovingTarget.FileStore
import MovingTarget.Json.Basic
import MovingTarget.Json.Text
import MovingTarget.Json.Wire
import MovingTarget.Log
import MovingTarget.Policy.AdaptiveInterval
import MovingTarget.Policy.Basic
import MovingTarget.Policy.Catalogue
import MovingTarget.Policy.Isolation
import MovingTarget.Policy.Layered
import MovingTarget.Policy.ScoreThreshold
import MovingTarget.Proofs.Anomaly
import MovingTarget.Proofs.ColdStart
import MovingTarget.Proofs.Comparisons
import MovingTarget.Proofs.Decimal.Doubles
import MovingTarget.Proofs.Decimal.Exact
import MovingTarget.Proofs.Decimal.Nearest
import MovingTarget.Proofs.Decimal.Numerals
import MovingTarget.Proofs.Decimal.Rounding
import MovingTarget.Proofs.Decimal.Shortest
import MovingTarget.Proofs.Engine.Accounting
import MovingTarget.Proofs.Engine.AuditTrail
import MovingTarget.Proofs.Engine.Averages
import MovingTarget.Proofs.Engine.Caps
import MovingTarget.Proofs.Engine.ClosedLoop
import MovingTarget.Proofs.Engine.Commitment
import MovingTarget.Proofs.Engine.Figures
import MovingTarget.Proofs.Engine.History
import MovingTarget.Proofs.Engine.Runs
import MovingTarget.Proofs.Intervals
import MovingTarget.Proofs.Isolation
import MovingTarget.Proofs.Json.Numbers
import MovingTarget.Proofs.Json.Text
import MovingTarget.Proofs.Json.Tokens
import MovingTarget.Proofs.Ladders
import MovingTarget.Proofs.Layered.Alarm
import MovingTarget.Proofs.Layered.Cooldown
import MovingTarget.Proofs.Layered.Destinations
import MovingTarget.Proofs.Layered.Epoch
import MovingTarget.Proofs.Layered.Locality
import MovingTarget.Proofs.Layered.Memory
import MovingTarget.Proofs.Layered.Notices
import MovingTarget.Proofs.Layered.Order
import MovingTarget.Proofs.Layered.Spreading
import MovingTarget.Proofs.Layered.Window
import MovingTarget.Proofs.MeanScores
import MovingTarget.Proofs.Memberships
import MovingTarget.Proofs.Placement
import MovingTarget.Proofs.ProxyPools
import MovingTarget.Proofs.Ranges
import MovingTarget.Proofs.Rationals
import MovingTarget.Proofs.Rescoring
import MovingTarget.Proofs.Runs
import MovingTarget.Proofs.Scalars
import MovingTarget.Proofs.Scoring
import MovingTarget.Proofs.Settings.Documents
import MovingTarget.Proofs.Settings.Fields
import MovingTarget.Proofs.Settings.Numbers
import MovingTarget.Proofs.Settings.Validation
import MovingTarget.Proofs.Settling
import MovingTarget.Proofs.Shortening
import MovingTarget.Proofs.Tables
import MovingTarget.Proofs.Thresholds
import MovingTarget.Proofs.Wire.Decisions
import MovingTarget.Proofs.Wire.Faithful
import MovingTarget.Proofs.Wire.Settings
import MovingTarget.Proofs.Wire.Snapshots
import MovingTarget.Routing
import MovingTarget.Scalar
import MovingTarget.Scoring
import MovingTarget.Settings.Basic
import MovingTarget.Settings.Codec
import MovingTarget.Settings.Flat
import MovingTarget.Snapshot.Basic
import MovingTarget.Snapshot.Codec
import MovingTarget.Table
import MovingTarget.Text.Quoted
import MovingTarget.Vocabulary

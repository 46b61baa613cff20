import DecisionCompiler.Decision.Assembly
import DecisionCompiler.Decision.Document
import DecisionCompiler.Http.Endpoint
import DecisionCompiler.Request.Document
import DecisionCompiler.Service
import DecisionCompiler.Settings.Load
import DecisionCompiler.Store.Directory
import DecisionCompiler.Store.Memory
import DecisionCompiler.Store.Remote
import DecisionCompiler.Proofs.Number.Rational
import DecisionCompiler.Proofs.Number.Layout
import DecisionCompiler.Proofs.Interval.Membership
import DecisionCompiler.Proofs.Interval.Tiling
import DecisionCompiler.Proofs.Outcome
import DecisionCompiler.Proofs.Rule.RangeLookup
import DecisionCompiler.Proofs.Service.Batch
import DecisionCompiler.Proofs.Json.Reading
import DecisionCompiler.Proofs.Json.Numerals
import DecisionCompiler.Proofs.Json.Records
import DecisionCompiler.Proofs.Value
import DecisionCompiler.Proofs.Request.Document
import DecisionCompiler.Proofs.Decision.Document
import DecisionCompiler.Proofs.Store.Inserts
import DecisionCompiler.Proofs.Template.Legible
import DecisionCompiler.Proofs.Rule.ThresholdLookup
import DecisionCompiler.Proofs.Store.Retry
import DecisionCompiler.Proofs.Service.Schedule
import DecisionCompiler.Proofs.Store.Remote
import DecisionCompiler.Proofs.Http.Endpoint
import DecisionCompiler.Proofs.Interval.Overlap
import DecisionCompiler.Proofs.Rule.Canonical
import DecisionCompiler.Proofs.Service.Strictness
import DecisionCompiler.Proofs.Json.Verbatim
import DecisionCompiler.Proofs.Rule.StringLookup
import DecisionCompiler.Proofs.Rule.Outcomes
import DecisionCompiler.Proofs.Decision.Reference
import DecisionCompiler.Proofs.Decision.Faithful
import DecisionCompiler.Proofs.Decision.Agreement
import DecisionCompiler.Proofs.Interval.Label
import DecisionCompiler.Proofs.Store.Path
import DecisionCompiler.Proofs.Store.Confinement
import DecisionCompiler.Proofs.Number.Whole
import DecisionCompiler.Proofs.Display
import DecisionCompiler.Proofs.Entries
import DecisionCompiler.Proofs.Http.Status
import DecisionCompiler.Proofs.Json.Filing
import DecisionCompiler.Proofs.Settings.Repository
import DecisionCompiler.Proofs.Template.Meaning
import DecisionCompiler.Proofs.Settings.Layers
import DecisionCompiler.Proofs.Settings.Environment
import DecisionCompiler.Proofs.Settings.Load
import DecisionCompiler.Proofs.Settings.Toml

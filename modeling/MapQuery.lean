import MapQuery.Assistant.Session
import MapQuery.Memory.Engine
import MapQuery.Memory.Town
import MapQuery.Action.Encoding
import MapQuery.Action.Rendering
import MapQuery.Schema.Encoding
import MapQuery.Host.Encoding
import MapQuery.Proofs.Decimal.Rounding
import MapQuery.Proofs.Decimal.Value
import MapQuery.Proofs.Decimal.Fields
import MapQuery.Proofs.Decimal.Exact
import MapQuery.Proofs.Decimal.Spelling
import MapQuery.Proofs.Decimal.ReadBack
import MapQuery.Proofs.Action.WrittenForm
import MapQuery.Proofs.Language.Evaluation
import MapQuery.Proofs.Language.Reading
import MapQuery.Proofs.Action.RoundTrip
import MapQuery.Proofs.Language.Binding
import MapQuery.Proofs.Language.Comments
import MapQuery.Proofs.Language.Guard
import MapQuery.Proofs.Decimal.Integers
import MapQuery.Proofs.Language.Extent
import MapQuery.Proofs.Action.Recompiling
import MapQuery.Proofs.Cache.Recency
import MapQuery.Proofs.Language.ActionCalls
import MapQuery.Proofs.Language.Completeness
import MapQuery.Proofs.Language.Meaning
import MapQuery.Proofs.Language.Locality
import MapQuery.Proofs.Language.Concatenation
import MapQuery.Proofs.Json.Depth
import MapQuery.Proofs.Json.RoundTrips
import MapQuery.Proofs.Json.Text
import MapQuery.Proofs.Json.Standard
import MapQuery.Proofs.Host.Encoding
import MapQuery.Proofs.Action.Encoding
import MapQuery.Proofs.Json.DataModel
import MapQuery.Proofs.Host.Repetitions
import MapQuery.Proofs.Host.Computation
import MapQuery.Proofs.Memory.Requests
import MapQuery.Proofs.Execution.Steps
import MapQuery.Proofs.Execution.Naming
import MapQuery.Proofs.Execution.Inheritance
import MapQuery.Proofs.Execution.Forecast
import MapQuery.Proofs.Execution.Effects
import MapQuery.Proofs.Execution.Lineage
import MapQuery.Proofs.Execution.Selection
import MapQuery.Proofs.Execution.Stability
import MapQuery.Proofs.Execution.UnionSelection
import MapQuery.Proofs.Execution.Refusal
import MapQuery.Proofs.Execution.History
import MapQuery.Proofs.Assistant.Transparency
import MapQuery.Proofs.Assistant.Completions
import MapQuery.Proofs.Cache.Room
import MapQuery.Proofs.Language.Blame
import MapQuery.Proofs.Language.Leftover
import MapQuery.Proofs.Language.Mentions
import MapQuery.Proofs.Language.Diagnostics
import MapQuery.Proofs.Execution.Filtering
import MapQuery.Proofs.Text.Layout
import MapQuery.Proofs.Cache.Key
import MapQuery.Proofs.Schema.Labels
import MapQuery.Proofs.Schema.Offers
import MapQuery.Proofs.Cache.Occupancy
import MapQuery.Proofs.Settings.Variables
import MapQuery.Proofs.Schema.Unsupported
import MapQuery.Proofs.Assistant.Fences
import MapQuery.Proofs.Assistant.Progress
import MapQuery.Proofs.Language.LineBreaks
import MapQuery.Proofs.Memory.Parts
import MapQuery.Proofs.Execution.Overlays

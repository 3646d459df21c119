import TableProfiling.Number.Layout
import TableProfiling.Text.Escape
import TableProfiling.Text.Truncate
import TableProfiling.Json.Fault
import TableProfiling.Json.Reader
import TableProfiling.Json.Record
import TableProfiling.Catalog.Codecs
import TableProfiling.Metric.Codecs
import TableProfiling.Failure
import TableProfiling.Log.Config
import TableProfiling.Scan.Resolution
import TableProfiling.Scan.Filter
import TableProfiling.Report.LineBreak
import TableProfiling.Report.Tally
import TableProfiling.Storage.Channel
import TableProfiling.Report.FileSink
import TableProfiling.Proofs.Outcome
import TableProfiling.Proofs.Scan.Options
import TableProfiling.Proofs.Scan.Strategy
import TableProfiling.Proofs.Scan.Resolution
import TableProfiling.Proofs.Scan.WellFormed
import TableProfiling.Proofs.Scan.Native
import TableProfiling.Proofs.Scan.Verbatim
import TableProfiling.Proofs.Report.Line
import TableProfiling.Proofs.Report.Run
import TableProfiling.Proofs.Report.ReadBack
import TableProfiling.Proofs.Number.Nearest
import TableProfiling.Proofs.Json.Literal
import TableProfiling.Proofs.Number.Decimal
import TableProfiling.Proofs.Json.Spelling
import TableProfiling.Proofs.Json.Number
import TableProfiling.Proofs.Scan.Literal
import TableProfiling.Proofs.Scan.Query
import TableProfiling.Proofs.Scan.Overlay
import TableProfiling.Proofs.Scan.Agreement
import TableProfiling.Proofs.Scan.Backslash
import TableProfiling.Proofs.Json.Escaped
import TableProfiling.Proofs.Json.Value
import TableProfiling.Proofs.Json.Codec
import TableProfiling.Proofs.Json.Record
import TableProfiling.Proofs.Catalog.Codecs
import TableProfiling.Proofs.Scan.Pinned
import TableProfiling.Proofs.Scan.Bounds
import TableProfiling.Proofs.Scan.SelfSufficient
import TableProfiling.Proofs.Json.Reread
import TableProfiling.Proofs.Catalog.RoundTrip
import TableProfiling.Proofs.Metric.Results
import TableProfiling.Proofs.Metric.RoundTrip
import TableProfiling.Proofs.Scan.Reported
import TableProfiling.Proofs.Report.Accounts
import TableProfiling.Proofs.Report.Scoped
import TableProfiling.Proofs.Number.Order
import TableProfiling.Proofs.Number.Rounding
import TableProfiling.Proofs.Metric.Mixed
import TableProfiling.Proofs.Metric.Transitivity
import TableProfiling.Proofs.Log.Picked
import TableProfiling.Proofs.Scan.Decided
import TableProfiling.Proofs.Report.Logged
import TableProfiling.Proofs.Metric.Converse
import TableProfiling.Proofs.Metric.Insertion
import TableProfiling.Proofs.Number.Range
import TableProfiling.Proofs.Scan.Grouping
import TableProfiling.Proofs.Json.Grammar
import TableProfiling.Proofs.Json.Readable
import TableProfiling.Proofs.Metric.Kinds
import TableProfiling.Proofs.Json.Accepted
import TableProfiling.Proofs.Calendar.Date
import TableProfiling.Proofs.Calendar.Instant
import TableProfiling.Proofs.Scan.Window
import TableProfiling.Proofs.Report.Parts
import TableProfiling.Proofs.Text.Escape
import TableProfiling.Proofs.Report.Place
import TableProfiling.Proofs.Report.Shown
import TableProfiling.Proofs.Text.Truncate
import TableProfiling.Proofs.Metric.Notation
import TableProfiling.Proofs.Text.Occurrences
import TableProfiling.Proofs.Failure

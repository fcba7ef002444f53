import RecordQuery.Authentication
import RecordQuery.Request.Bench
import RecordQuery.Proofs.Filter.Sharing
import RecordQuery.Proofs.Filter.Quotation
import RecordQuery.Proofs.Filter.Chain
import RecordQuery.Proofs.Filter.Coverage
import RecordQuery.Proofs.Filter.Independence
import RecordQuery.Proofs.Filter.ReadingOrder
import RecordQuery.Proofs.Filter.Closing
import RecordQuery.Proofs.Request.Relation
import RecordQuery.Proofs.Request.Dangling
import RecordQuery.Proofs.Filter.SpelledOut
import RecordQuery.Proofs.Number.Layout
import RecordQuery.Proofs.Value.Json
import RecordQuery.Proofs.Calendar.Date
import RecordQuery.Proofs.Calendar.Instant
import RecordQuery.Proofs.Text.Field
import RecordQuery.Proofs.Value.Stamp
import RecordQuery.Proofs.Form
import RecordQuery.Proofs.Request.Link
import RecordQuery.Proofs.Value.Nested
import RecordQuery.Proofs.Filter.Leftover
import RecordQuery.Proofs.Request.AddedName
import RecordQuery.Proofs.Filter.Collision
import RecordQuery.Proofs.Filter.Piecewise

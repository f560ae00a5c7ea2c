import ResourceQuery.Main
import ResourceQuery.Recording
import ResourceQuery.Request.Builder
import ResourceQuery.Sample
import ResourceQuery.Proofs.Conformance
import ResourceQuery.Proofs.Filter.Trace
import ResourceQuery.Proofs.Filter.Forms
import ResourceQuery.Proofs.Filter.Types
import ResourceQuery.Proofs.Independence
import ResourceQuery.Proofs.Normalization
import ResourceQuery.Proofs.Recording
import ResourceQuery.Proofs.Request.Frame
import ResourceQuery.Proofs.Request.Query
import ResourceQuery.Proofs.Schema.Building
import ResourceQuery.Proofs.Schema.RoundTrip
import ResourceQuery.Proofs.Schema.Walk
import ResourceQuery.Proofs.Selection.Recognition
import ResourceQuery.Proofs.Sql.Clauses
import ResourceQuery.Proofs.Sql.Meaning
import ResourceQuery.Proofs.Sql.Mentions
import ResourceQuery.Proofs.Sql.Patterns
import ResourceQuery.Proofs.Sql.Placeholders
import ResourceQuery.Proofs.Selection.Braces
import ResourceQuery.Proofs.Selection.Joining
import ResourceQuery.Proofs.Schema.FieldTree
import ResourceQuery.Proofs.Selection.Lookup
import ResourceQuery.Proofs.Selection.Merge
import ResourceQuery.Proofs.Published
import ResourceQuery.Proofs.Respelling
import ResourceQuery.Proofs.Ordering
import ResourceQuery.Proofs.Pagination
import ResourceQuery.Proofs.Request.Canonical
import ResourceQuery.Proofs.Sql.Denotation
import ResourceQuery.Proofs.Grouping
import ResourceQuery.Proofs.Nulls

import EntityMapper.Cache.KeyMap
import EntityMapper.Cache.Memory
import EntityMapper.Cache.Schema
import EntityMapper.Calendar.DateTime
import EntityMapper.Config
import EntityMapper.Declaration
import EntityMapper.Driver.Basic
import EntityMapper.Driver.Recorded
import EntityMapper.Driver.Row
import EntityMapper.Driver.Ruled
import EntityMapper.Error
import EntityMapper.Json.Basic
import EntityMapper.Json.Number
import EntityMapper.Json.Parser
import EntityMapper.Json.Printer
import EntityMapper.Manager
import EntityMapper.Model.Closure
import EntityMapper.Model.ColumnType
import EntityMapper.Model.Description
import EntityMapper.Model.Entity
import EntityMapper.Model.Kind
import EntityMapper.Model.Tag
import EntityMapper.Number.Binary
import EntityMapper.Number.Decimal
import EntityMapper.Session.Action
import EntityMapper.Session.Event
import EntityMapper.Session.Progress
import EntityMapper.Session.Read
import EntityMapper.Session.Schema
import EntityMapper.Session.Transaction
import EntityMapper.Session.Write
import EntityMapper.Sql.Builder
import EntityMapper.Sql.Literal
import EntityMapper.Sql.Quoted
import EntityMapper.Sql.Statement
import EntityMapper.Storage.Assignment
import EntityMapper.Storage.Bound
import EntityMapper.Storage.Cell
import EntityMapper.Storage.Equality
import EntityMapper.Text.Blank
import EntityMapper.Text.Diagnostic
import EntityMapper.Text.Printable
import EntityMapper.Value.Basic
import EntityMapper.Value.Coercion
import EntityMapper.Value.Error
import EntityMapper.Value.Json
import EntityMapper.Proofs.Checked
import EntityMapper.Proofs.Model.Description
import EntityMapper.Proofs.Model.Closure
import EntityMapper.Proofs.Model.LinkTables
import EntityMapper.Proofs.Model.Order
import EntityMapper.Proofs.Sql.Parts
import EntityMapper.Proofs.Sql.Sealing
import EntityMapper.Proofs.Calendar.DateTime
import EntityMapper.Proofs.Json.Reading
import EntityMapper.Proofs.Sql.Reading
import EntityMapper.Proofs.Storage.Stored
import EntityMapper.Proofs.Session.Steps
import EntityMapper.Proofs.Session.Schema
import EntityMapper.Proofs.Storage.Exact
import EntityMapper.Proofs.Storage.Rows
import EntityMapper.Proofs.Session.RoundTrip
import EntityMapper.Proofs.Storage.Family
import EntityMapper.Proofs.Session.Plans
import EntityMapper.Proofs.Storage.Generated
import EntityMapper.Proofs.Session.Insertion
import EntityMapper.Proofs.Session.Deletion
import EntityMapper.Proofs.Session.Relinking
import EntityMapper.Proofs.Storage.Related
import EntityMapper.Proofs.Session.Selections
import EntityMapper.Proofs.Session.Loading
import EntityMapper.Proofs.Session.Jobs
import EntityMapper.Proofs.Session.Journal
import EntityMapper.Proofs.Session.JobRuns
import EntityMapper.Proofs.Session.Tables
import EntityMapper.Proofs.Session.Faults
import EntityMapper.Proofs.Session.Pieces
import EntityMapper.Proofs.Session.Composition
import EntityMapper.Proofs.Session.Requests
import EntityMapper.Proofs.Session.Stages
import EntityMapper.Proofs.Session.Coverage
import EntityMapper.Proofs.Session.Sharing
import EntityMapper.Proofs.Session.Soundness
import EntityMapper.Proofs.Session.Ownership
import EntityMapper.Proofs.Session.Cursors
import EntityMapper.Proofs.Session.Failures
import EntityMapper.Proofs.Session.Transactions
import EntityMapper.Proofs.Session.DeletionPlan
import EntityMapper.Proofs.Session.Dropping
import EntityMapper.Proofs.Session.Refusals
import EntityMapper.Proofs.Session.PartialLoading
import EntityMapper.Proofs.Session.Frame
import EntityMapper.Proofs.Storage.Agreement
import EntityMapper.Proofs.Number.Rounding
import EntityMapper.Proofs.Storage.Projection
import EntityMapper.Proofs.Model.Verdict
import EntityMapper.Proofs.Sql.RowColumns
import EntityMapper.Proofs.Session.Laws
import EntityMapper.Proofs.Session.SqlLog
import EntityMapper.Proofs.Session.TransactionSchema
import EntityMapper.Proofs.Storage.Classification
import EntityMapper.Proofs.Session.Places
import EntityMapper.Proofs.Session.Updates
import EntityMapper.Proofs.Storage.Keys
import EntityMapper.Proofs.Number.Overflow
import EntityMapper.Proofs.Storage.Rendering
import EntityMapper.Proofs.Storage.Ranges
import EntityMapper.Proofs.Session.LinkKeys
import EntityMapper.Proofs.Sql.Naming
import EntityMapper.Proofs.Sql.Omissions
import EntityMapper.Proofs.Declaration.Attributes
import EntityMapper.Proofs.Declaration.DefaultTags
import EntityMapper.Proofs.Sql.Quoting
import EntityMapper.Proofs.Value.Lifting
import EntityMapper.Proofs.Model.Slots
import EntityMapper.Proofs.Cache.Memory
import EntityMapper.Proofs.Cache.Handles

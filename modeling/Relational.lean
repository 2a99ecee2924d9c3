import Relational.Action
import Relational.Config.Basic
import Relational.Config.Document
import Relational.Config.Error
import Relational.Decimal.Binary64
import Relational.Decimal.Layout
import Relational.Decimal.Reading
import Relational.Decimal.Shortest
import Relational.Dialect.Basic
import Relational.Dialect.Catalog
import Relational.Dialect.Column
import Relational.Dialect.Index
import Relational.Dialect.Rebuild
import Relational.Dialect.Table
import Relational.Digest.Sha256
import Relational.Failure
import Relational.Files.FileSystem
import Relational.Files.Path
import Relational.Files.Writing
import Relational.Json.Basic
import Relational.Json.Reader
import Relational.Marker
import Relational.Migration.Discovery
import Relational.Migration.Ledger
import Relational.Migration.Migrator
import Relational.Migration.Registry
import Relational.Migration.Report
import Relational.Migration.Scaffold
import Relational.Migration.Script
import Relational.Migration.Statements
import Relational.Migration.Unit
import Relational.Name
import Relational.Paging.Cursor
import Relational.Paging.Error
import Relational.Paging.Offset
import Relational.Paging.Token
import Relational.Proofs.Action
import Relational.Proofs.Decimal.Digits
import Relational.Proofs.Json.Numbers
import Relational.Proofs.Json.Strings
import Relational.Proofs.Json.Values
import Relational.Proofs.Marker
import Relational.Proofs.Migration.Applying
import Relational.Proofs.Migration.Asking
import Relational.Proofs.Migration.Clearing
import Relational.Proofs.Migration.Consistency
import Relational.Proofs.Migration.Database
import Relational.Proofs.Migration.Foreseen
import Relational.Proofs.Migration.History
import Relational.Proofs.Migration.Hosting
import Relational.Proofs.Migration.Ledger
import Relational.Proofs.Migration.LoggedMemory
import Relational.Proofs.Migration.Memory
import Relational.Proofs.Migration.Reached
import Relational.Proofs.Migration.Recorded
import Relational.Proofs.Migration.Rehearsal
import Relational.Proofs.Migration.Reverting
import Relational.Proofs.Migration.Run
import Relational.Proofs.Migration.Spared
import Relational.Proofs.Migration.Status
import Relational.Proofs.Migration.Step
import Relational.Proofs.Migration.Stepwise
import Relational.Proofs.Migration.Switch
import Relational.Proofs.Migration.TakenBack
import Relational.Proofs.Migration.Targets
import Relational.Proofs.Migration.Traced
import Relational.Proofs.Name
import Relational.Proofs.Paging.Altered
import Relational.Proofs.Paging.Returned
import Relational.Proofs.Paging.Token
import Relational.Proofs.Paging.Walk
import Relational.Proofs.Query.Admitted
import Relational.Proofs.Query.Alike
import Relational.Proofs.Query.Call
import Relational.Proofs.Query.Checked
import Relational.Proofs.Query.Clauses
import Relational.Proofs.Query.Counterparts
import Relational.Proofs.Query.Fault
import Relational.Proofs.Query.Formula
import Relational.Proofs.Query.Grammar
import Relational.Proofs.Query.Numbering
import Relational.Proofs.Query.Placeholders
import Relational.Proofs.Query.Places
import Relational.Proofs.Query.Reading
import Relational.Proofs.Query.Statement
import Relational.Proofs.Query.Written
import Relational.Proofs.Schema.Classified
import Relational.Proofs.Schema.Copy
import Relational.Proofs.Schema.Creation
import Relational.Proofs.Schema.Cutting
import Relational.Proofs.Schema.Definition
import Relational.Proofs.Schema.Keywords
import Relational.Proofs.Schema.Merged
import Relational.Proofs.Schema.Naming
import Relational.Proofs.Schema.Prefixed
import Relational.Proofs.Schema.ReadBack
import Relational.Proofs.Schema.Unnamed
import Relational.Proofs.Session.Keeping
import Relational.Proofs.Session.Plan
import Relational.Proofs.Session.Rebuild
import Relational.Proofs.Session.Rounds
import Relational.Proofs.Session.Savepoint
import Relational.Proofs.Session.Verbs
import Relational.Proofs.Sql
import Relational.Proofs.Text.Base64Url
import Relational.Proofs.Text.Folded
import Relational.Query.Basic
import Relational.Query.Condition
import Relational.Query.Error
import Relational.Query.Join
import Relational.Query.Operand
import Relational.Query.Operator
import Relational.Query.Select
import Relational.Query.Write
import Relational.Row
import Relational.Schema.Blueprint
import Relational.Schema.Column
import Relational.Schema.Compiler
import Relational.Schema.Error
import Relational.Schema.Index
import Relational.Schema.Plan
import Relational.Schema.Snapshot
import Relational.Session.Executor
import Relational.Session.Mock
import Relational.Session.Procedure
import Relational.Session.Runner
import Relational.Session.Schema
import Relational.Session.Transaction
import Relational.Sql
import Relational.Text.Base64Url
import Relational.Text.Blank
import Relational.Text.CaseTables
import Relational.Text.Casing
import Relational.Time.Calendar
import Relational.Time.Offset
import Relational.Time.Stamp
import Relational.Toml.Basic
import Relational.Toml.Reader
import Relational.Toml.Scalar
import Relational.Value
import Relational.Proofs.Files.Kept
import Relational.Proofs.Migration.Skeleton
import Relational.Proofs.Migration.Started
import Relational.Proofs.Migration.Splitting
import Relational.Proofs.Schema.InOrder
import Relational.Proofs.Schema.Carried
import Relational.Proofs.Migration.DropAll
import Relational.Proofs.Paging.Windows
import Relational.Proofs.Query.Counting
import Relational.Proofs.Quoted
import Relational.Proofs.Schema.Escapes
import Relational.Proofs.Schema.MadeUp
import Relational.Proofs.Text.Lowered
import Relational.Proofs.Text.Percent
import Relational.Proofs.Decimal.Rounding
import Relational.Proofs.Paging.Start
import Relational.Proofs.Query.Inserted
import Relational.Proofs.Config.Address
import Relational.Proofs.Results
import Relational.Proofs.Session.Aggregated
import Relational.Proofs.Value
import Relational.Proofs.Time.Setting
import Relational.Proofs.Migration.Sections
import Relational.Proofs.Query.Interleaved
import Relational.Proofs.Query.Nulls
import Relational.Proofs.Schema.Starred
import Relational.Proofs.Words
import Relational.Proofs.Query.Spots
import Relational.Proofs.Query.Aliased
import Relational.Proofs.Schema.Keyed
import Relational.Proofs.Scanned
import Relational.Proofs.Schema.Lexemes
import Relational.Proofs.Schema.Referable
import Relational.Proofs.Decimal.Places
import Relational.Proofs.Decimal.Shortest
import Relational.Proofs.Decimal.Stepwise
import Relational.Proofs.Json.Floats
import Relational.Proofs.Paging.Floats
import Relational.Proofs.Migration.Rejoined
import Relational.Proofs.Migration.SnakeCase
import Relational.Proofs.Schema.Filed

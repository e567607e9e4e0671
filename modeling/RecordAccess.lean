import RecordAccess.Access
import RecordAccess.Codec.Models
import RecordAccess.Codec.Outcomes
import RecordAccess.CommandLine.Argument
import RecordAccess.CommandLine.Help
import RecordAccess.CommandLine.Invocation
import RecordAccess.CommandLine.Option
import RecordAccess.CommandLine.Program
import RecordAccess.CommandLine.Report
import RecordAccess.Configuration.Basic
import RecordAccess.Configuration.Codec
import RecordAccess.Configuration.Directive
import RecordAccess.Configuration.Duration
import RecordAccess.Configuration.Load
import RecordAccess.Configuration.Setting
import RecordAccess.Configuration.Source
import RecordAccess.Configuration.VariableFile
import RecordAccess.Database.Address
import RecordAccess.Database.Providers
import RecordAccess.Database.Row
import RecordAccess.Decimal.Binary64
import RecordAccess.Decimal.Digits
import RecordAccess.Decimal.Shortest
import RecordAccess.Decimal.Text
import RecordAccess.Decision
import RecordAccess.Directory
import RecordAccess.Document
import RecordAccess.Document.Json
import RecordAccess.Document.Yaml
import RecordAccess.Engine.Basic
import RecordAccess.Engine.Caller
import RecordAccess.Engine.Compile
import RecordAccess.Engine.Decide
import RecordAccess.Engine.Groups
import RecordAccess.Engine.Managers
import RecordAccess.Error.Basic
import RecordAccess.Error.Cause
import RecordAccess.Event
import RecordAccess.File
import RecordAccess.Filter.Predicate
import RecordAccess.Filter.Sql
import RecordAccess.Id
import RecordAccess.Json.Basic
import RecordAccess.Json.Content
import RecordAccess.Json.Printer
import RecordAccess.Json.Reader
import RecordAccess.Json.TextForm
import RecordAccess.Main
import RecordAccess.Principal
import RecordAccess.Proofs.Agreement
import RecordAccess.Proofs.Answers
import RecordAccess.Proofs.Clauses
import RecordAccess.Proofs.Closures
import RecordAccess.Proofs.Compilation
import RecordAccess.Proofs.Decisions
import RecordAccess.Proofs.Deployments
import RecordAccess.Proofs.Digits
import RecordAccess.Proofs.Documents
import RecordAccess.Proofs.Extremes
import RecordAccess.Proofs.Failures
import RecordAccess.Proofs.Following
import RecordAccess.Proofs.Frontiers
import RecordAccess.Proofs.Histories
import RecordAccess.Proofs.Isolation
import RecordAccess.Proofs.Json.Canonical
import RecordAccess.Proofs.Json.Grammar
import RecordAccess.Proofs.Json.Printing
import RecordAccess.Proofs.Json.Tokens
import RecordAccess.Proofs.Likeness
import RecordAccess.Proofs.Loading
import RecordAccess.Proofs.Loops
import RecordAccess.Proofs.Managers
import RecordAccess.Proofs.Moments
import RecordAccess.Proofs.Policy
import RecordAccess.Proofs.Populations
import RecordAccess.Proofs.Predicates
import RecordAccess.Proofs.Recall
import RecordAccess.Proofs.Renaming
import RecordAccess.Proofs.Reordering
import RecordAccess.Proofs.Resolution
import RecordAccess.Proofs.Rows
import RecordAccess.Proofs.Runs
import RecordAccess.Proofs.Sessions
import RecordAccess.Proofs.Snapshots
import RecordAccess.Proofs.Sorting
import RecordAccess.Proofs.Spending
import RecordAccess.Proofs.Spoiled
import RecordAccess.Proofs.Sql.Conditions
import RecordAccess.Proofs.Sql.Fragments
import RecordAccess.Proofs.Sql.Shapes
import RecordAccess.Proofs.Sql.Tokens
import RecordAccess.Proofs.Strengths
import RecordAccess.Proofs.Tables
import RecordAccess.Proofs.Traversals
import RecordAccess.Proofs.Truncation
import RecordAccess.Proofs.Walks
import RecordAccess.Proofs.Widening
import RecordAccess.Providers
import RecordAccess.Query
import RecordAccess.RandomId
import RecordAccess.Rule
import RecordAccess.Run
import RecordAccess.Store.Basic
import RecordAccess.Store.Load
import RecordAccess.Store.Snapshot
import RecordAccess.Subject
import RecordAccess.Table
import RecordAccess.Text.Blank
import RecordAccess.Text.Lines
import RecordAccess.Text.LowerCase
import RecordAccess.Text.Percent
import RecordAccess.Text.Sorted
import RecordAccess.Text.Width
import RecordAccess.Timestamp
import RecordAccess.Walk
import RecordAccess.Yaml.Character
import RecordAccess.Yaml.Node
import RecordAccess.Yaml.Printer
import RecordAccess.Yaml.Scalar
import RecordAccess.Yaml.Token

import Discography.Catalogue.Draft
import Discography.Catalogue.Model
import Discography.Catalogue.Schema
import Discography.Catalogue.Store
import Discography.Cell
import Discography.Config.Basic
import Discography.Config.Builder
import Discography.Config.Database
import Discography.Decimal.Binary64
import Discography.Decimal.Integer
import Discography.Decimal.Layout
import Discography.Decimal.Real
import Discography.Decimal.Shortest
import Discography.Error
import Discography.Execution.Batch
import Discography.Execution.Fetch
import Discography.Execution.Transaction
import Discography.Filter.Condition
import Discography.Filter.Expression
import Discography.Filter.Predicate
import Discography.Host.Basic
import Discography.Host.BuiltIn
import Discography.Host.Script
import Discography.Host.Session
import Discography.Host.Unavailable
import Discography.Identifier.Basic
import Discography.Identifier.Generator
import Discography.Json.Basic
import Discography.Json.Decode
import Discography.Json.Tagged
import Discography.Keyed
import Discography.Log.Config
import Discography.Log.Console
import Discography.Log.Entry
import Discography.Log.Filter
import Discography.Log.Level
import Discography.Log.Subscriber
import Discography.Page
import Discography.Pattern.Atom
import Discography.Pattern.Bracket
import Discography.Pattern.Syntax
import Discography.Proofs.Catalogue.Changes
import Discography.Proofs.Catalogue.Failures
import Discography.Proofs.Catalogue.Pages
import Discography.Proofs.Catalogue.Positions
import Discography.Proofs.Catalogue.ReadBack
import Discography.Proofs.Config.Memory
import Discography.Proofs.Config.Settings
import Discography.Proofs.Database.Order
import Discography.Proofs.Database.ReadBack
import Discography.Proofs.Database.Reading
import Discography.Proofs.Decimal.Numeral
import Discography.Proofs.Decimal.Overflow
import Discography.Proofs.Decimal.RoundTrip
import Discography.Proofs.Decimal.Rounding
import Discography.Proofs.Decimal.Syntax
import Discography.Proofs.Execution.Phases
import Discography.Proofs.Filter.Evaluation
import Discography.Proofs.Filter.Finite
import Discography.Proofs.Filter.Formula
import Discography.Proofs.Filter.Meaning
import Discography.Proofs.Filter.Mentions
import Discography.Proofs.Filter.Outline
import Discography.Proofs.Filter.Patterns
import Discography.Proofs.Filter.Reals
import Discography.Proofs.Filter.RowValues
import Discography.Proofs.Filter.Tokens
import Discography.Proofs.Identifier.Counter
import Discography.Proofs.Identifier.Encodings
import Discography.Proofs.Identifier.Layout
import Discography.Proofs.Identifier.Order
import Discography.Proofs.Json.Canonical
import Discography.Proofs.Log.Decisions
import Discography.Proofs.Log.Statements
import Discography.Proofs.Outcome
import Discography.Proofs.Page
import Discography.Proofs.Query.Acceptable
import Discography.Proofs.Query.Additions
import Discography.Proofs.Query.CallLog
import Discography.Proofs.Query.ChangeOutline
import Discography.Proofs.Query.Changes
import Discography.Proofs.Query.CountedSource
import Discography.Proofs.Query.DefaultProjection
import Discography.Proofs.Query.Grammar
import Discography.Proofs.Query.Groups
import Discography.Proofs.Query.Injection
import Discography.Proofs.Query.InsertedRows
import Discography.Proofs.Query.Insertion
import Discography.Proofs.Query.Invariant
import Discography.Proofs.Query.JoinedRecord
import Discography.Proofs.Query.LegalCalls
import Discography.Proofs.Query.LogLaws
import Discography.Proofs.Query.NonFinite
import Discography.Proofs.Query.NothingIgnored
import Discography.Proofs.Query.Nullability
import Discography.Proofs.Query.Outline
import Discography.Proofs.Query.Parts
import Discography.Proofs.Query.Reachable
import Discography.Proofs.Query.Reals
import Discography.Proofs.Query.Record
import Discography.Proofs.Query.Rows
import Discography.Proofs.Query.ScopedQuery
import Discography.Proofs.Query.ScopedSteps
import Discography.Proofs.Query.Scoping
import Discography.Proofs.Query.Selection
import Discography.Proofs.Query.StatementClauses
import Discography.Proofs.Query.StepOutline
import Discography.Proofs.Query.Steps
import Discography.Proofs.Query.Tokens
import Discography.Proofs.Query.WellScoped
import Discography.Proofs.Query.Wrapping
import Discography.Proofs.Schema.Stored
import Discography.Proofs.Service.Location
import Discography.Proofs.Service.Start
import Discography.Proofs.Sql.Clauses
import Discography.Proofs.Sql.Lexer
import Discography.Proofs.Sql.LiteralBodies
import Discography.Proofs.Sql.LiteralGrammar
import Discography.Proofs.Sql.LiteralRange
import Discography.Proofs.Sql.Literals
import Discography.Proofs.Sql.Names
import Discography.Proofs.Sql.Nesting
import Discography.Proofs.Sql.Quoted
import Discography.Proofs.Sql.Reals
import Discography.Proofs.Sql.Separated
import Discography.Proofs.Sql.Text
import Discography.Proofs.Sql.Writes
import Discography.Proofs.Text.FileName
import Discography.Query.Basic
import Discography.Query.Build
import Discography.Query.Mutation
import Discography.Query.Projection
import Discography.Query.Render
import Discography.Query.Shape
import Discography.Query.Stage
import Discography.Quotation
import Discography.Record
import Discography.Schema.Table
import Discography.Service.Basic
import Discography.Service.Error
import Discography.Sql.Dialect
import Discography.Sql.Lexeme
import Discography.Sql.Literal
import Discography.Sql.Literal.Reader
import Discography.Text.Blank
import Discography.Text.FileName
import Discography.Text.Hex
import Discography.Text.Quoted
import Discography.Text.Search
import Discography.Text.Slice
import Discography.Text.Unprinted
import Discography.Time.Calendar
import Discography.Time.Instant
import Discography.Value

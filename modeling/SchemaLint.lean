import SchemaLint.Calendar.Date
import SchemaLint.Calendar.Timestamp
import SchemaLint.Catalog.Account
import SchemaLint.Catalog.Basic
import SchemaLint.Catalog.Column
import SchemaLint.Catalog.Error
import SchemaLint.Catalog.Facts
import SchemaLint.Catalog.Format
import SchemaLint.Catalog.Format.Table
import SchemaLint.Catalog.Index
import SchemaLint.Catalog.Query
import SchemaLint.Catalog.Schema
import SchemaLint.Catalog.Table
import SchemaLint.Catalog.Version
import SchemaLint.CommandLine.Options
import SchemaLint.CommandLine.Run
import SchemaLint.CommandLine.World
import SchemaLint.Definition.Column
import SchemaLint.Definition.Edit
import SchemaLint.Definition.Encoding
import SchemaLint.Definition.Key
import SchemaLint.Definition.Table
import SchemaLint.Digest.Expression
import SchemaLint.Digest.Grammar
import SchemaLint.Digest.Reader
import SchemaLint.Digest.Scan
import SchemaLint.Digest.Scope
import SchemaLint.Digest.Source
import SchemaLint.Digest.Syntax
import SchemaLint.Digest.Token
import SchemaLint.Finding
import SchemaLint.Inspection
import SchemaLint.Json.Basic
import SchemaLint.Json.Members
import SchemaLint.Json.Printer
import SchemaLint.Json.Reader
import SchemaLint.Json.Scan
import SchemaLint.Json.Token
import SchemaLint.Main
import SchemaLint.Metadata.Charset
import SchemaLint.Metadata.ColumnType
import SchemaLint.Metadata.Error
import SchemaLint.Metadata.Storage
import SchemaLint.NameMap
import SchemaLint.Number.Binary
import SchemaLint.Number.Decimal
import SchemaLint.Number.Fixed
import SchemaLint.Number.Radix
import SchemaLint.Number.Shortest
import SchemaLint.Number.Word
import SchemaLint.Parser
import SchemaLint.Parser.Keyword
import SchemaLint.Proofs.Calendar.Timestamp
import SchemaLint.Proofs.Calendar.Validity
import SchemaLint.Proofs.Catalog.Edit
import SchemaLint.Proofs.Catalog.Facts
import SchemaLint.Proofs.Catalog.Format
import SchemaLint.Proofs.Catalog.Frame
import SchemaLint.Proofs.Catalog.LeftPrefix
import SchemaLint.Proofs.Catalog.Lookup
import SchemaLint.Proofs.Catalog.Redundancy
import SchemaLint.Proofs.Catalog.ShortText
import SchemaLint.Proofs.Catalog.Version
import SchemaLint.Proofs.Catalog.WellFormed
import SchemaLint.Proofs.Definition.Edit
import SchemaLint.Proofs.Definition.FreeName
import SchemaLint.Proofs.Definition.Inheritance
import SchemaLint.Proofs.Definition.InlineKey
import SchemaLint.Proofs.Definition.Invariant
import SchemaLint.Proofs.Definition.Key
import SchemaLint.Proofs.Definition.PrimaryClause
import SchemaLint.Proofs.Definition.PrimaryKeyText
import SchemaLint.Proofs.Definition.Table
import SchemaLint.Proofs.Digest.Name
import SchemaLint.Proofs.Digest.Retention
import SchemaLint.Proofs.Digest.Scoping
import SchemaLint.Proofs.Digest.Walk
import SchemaLint.Proofs.Except
import SchemaLint.Proofs.Inspection
import SchemaLint.Proofs.Inspection.Course
import SchemaLint.Proofs.Inspection.Disabling
import SchemaLint.Proofs.Json.Members
import SchemaLint.Proofs.Json.Read
import SchemaLint.Proofs.Json.Scan
import SchemaLint.Proofs.Json.Text
import SchemaLint.Proofs.Metadata.Charset
import SchemaLint.Proofs.Metadata.ColumnType
import SchemaLint.Proofs.Metadata.Storage
import SchemaLint.Proofs.Number.Word
import SchemaLint.Proofs.Parser
import SchemaLint.Proofs.Parser.Locality
import SchemaLint.Proofs.Rule.KeyCost
import SchemaLint.Proofs.Rule.SqlModes
import SchemaLint.Proofs.Session.Accounts
import SchemaLint.Proofs.Session.ColumnAddition
import SchemaLint.Proofs.Session.Effect
import SchemaLint.Proofs.Session.Failure
import SchemaLint.Proofs.Session.Frame
import SchemaLint.Proofs.Session.Grants
import SchemaLint.Proofs.Session.History
import SchemaLint.Proofs.Session.Inheritance
import SchemaLint.Proofs.Session.KeyClash
import SchemaLint.Proofs.Session.KeyPlacement
import SchemaLint.Proofs.Session.LeadingColumn
import SchemaLint.Proofs.Session.Log
import SchemaLint.Proofs.Session.PrimaryKey
import SchemaLint.Proofs.Session.Qualification
import SchemaLint.Proofs.Session.Run
import SchemaLint.Proofs.Session.Snapshot
import SchemaLint.Proofs.Session.TypeNames
import SchemaLint.Proofs.Session.Views
import SchemaLint.Proofs.Session.WellFormed
import SchemaLint.Proofs.Snapshot
import SchemaLint.Proofs.Snapshot.KeyRules
import SchemaLint.Proofs.Snapshot.Lookup
import SchemaLint.Proofs.Snapshot.Refusal
import SchemaLint.Proofs.Snapshot.Reload
import SchemaLint.Proofs.Sql.Agreement
import SchemaLint.Proofs.Sql.Concatenation
import SchemaLint.Proofs.Sql.Display
import SchemaLint.Proofs.Sql.ErrorLine
import SchemaLint.Proofs.Sql.GrantTarget
import SchemaLint.Proofs.Sql.KeyText
import SchemaLint.Proofs.Sql.LineBreak
import SchemaLint.Proofs.Sql.Lines
import SchemaLint.Proofs.Sql.Locality
import SchemaLint.Proofs.Sql.Origin
import SchemaLint.Proofs.Sql.Placement
import SchemaLint.Proofs.Sql.Quotation
import SchemaLint.Proofs.Sql.Reader
import SchemaLint.Proofs.Sql.Scan
import SchemaLint.Proofs.Sql.Script
import SchemaLint.Proofs.Sql.Statement
import SchemaLint.Proofs.Sql.Stepper.Account
import SchemaLint.Proofs.Sql.Stepper.Alteration
import SchemaLint.Proofs.Sql.Stepper.Basic
import SchemaLint.Proofs.Sql.Stepper.Column
import SchemaLint.Proofs.Sql.Stepper.Group
import SchemaLint.Proofs.Sql.Stepper.Key
import SchemaLint.Proofs.Sql.Stepper.Loop
import SchemaLint.Proofs.Sql.Stepper.Name
import SchemaLint.Proofs.Sql.Stepper.Statement
import SchemaLint.Proofs.Sql.Stepper.Table
import SchemaLint.Proofs.Sql.TableGrammar
import SchemaLint.Proofs.Sql.TableLayout
import SchemaLint.Proofs.Sql.TableText
import SchemaLint.Proofs.Sql.UnmodelledConstraint
import SchemaLint.Proofs.Text.Case
import SchemaLint.Proofs.Text.Class
import SchemaLint.Proofs.Text.Pieces
import SchemaLint.Proofs.Text.Runs
import SchemaLint.Proofs.Text.Words
import SchemaLint.Report
import SchemaLint.Rule.Account
import SchemaLint.Rule.Basic
import SchemaLint.Rule.Catalog
import SchemaLint.Rule.Column
import SchemaLint.Rule.Query
import SchemaLint.Rule.Table
import SchemaLint.Session
import SchemaLint.Settings.Basic
import SchemaLint.Settings.Text
import SchemaLint.Severity
import SchemaLint.Snapshot
import SchemaLint.Sql.Grammar
import SchemaLint.Sql.Grammar.Account
import SchemaLint.Sql.Grammar.Column
import SchemaLint.Sql.Grammar.Key
import SchemaLint.Sql.Grammar.Name
import SchemaLint.Sql.Grammar.Table
import SchemaLint.Sql.Lexeme
import SchemaLint.Sql.Reader
import SchemaLint.Sql.Scan
import SchemaLint.Sql.Script
import SchemaLint.Sql.Statement
import SchemaLint.Sql.SyntaxError
import SchemaLint.Sql.Token
import SchemaLint.Subject
import SchemaLint.Text.Basic
import SchemaLint.Text.Class
import SchemaLint.Text.Ranges
import SchemaLint.Toml.Basic
import SchemaLint.Toml.Document
import SchemaLint.Toml.Reader
import SchemaLint.Toml.Scalar

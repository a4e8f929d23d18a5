import ModelSchema.Allowlist
import ModelSchema.Association
import ModelSchema.Catalog
import ModelSchema.Check.Class
import ModelSchema.Check.Domain
import ModelSchema.Check.Model
import ModelSchema.Check.Namespace
import ModelSchema.Check.Options
import ModelSchema.Check.Property
import ModelSchema.Check.Registry
import ModelSchema.Check.Seed
import ModelSchema.Command.Arguments
import ModelSchema.Command.Run
import ModelSchema.Config.Basic
import ModelSchema.Config.Document
import ModelSchema.Decimal.Layout
import ModelSchema.Decimal.Scale
import ModelSchema.Decimal.Shortest
import ModelSchema.Diagnostic.Basic
import ModelSchema.Diagnostic.Code
import ModelSchema.Diagnostic.Sink
import ModelSchema.Digest.Sha256
import ModelSchema.Graph.Basic
import ModelSchema.Graph.Fingerprint
import ModelSchema.Host.Basic
import ModelSchema.Host.Memory
import ModelSchema.Host.Writer
import ModelSchema.Interchange.Adapter
import ModelSchema.Interchange.Format
import ModelSchema.Interchange.ObjectModel
import ModelSchema.Interchange.Xmi
import ModelSchema.Json.Basic
import ModelSchema.Json.Canonical
import ModelSchema.Json.Number
import ModelSchema.Json.Parser
import ModelSchema.Json.Printer
import ModelSchema.Json.Record
import ModelSchema.Main
import ModelSchema.Multiplicity
import ModelSchema.Naming
import ModelSchema.Naming.Rules
import ModelSchema.Naming.Suffix
import ModelSchema.Outline
import ModelSchema.Path
import ModelSchema.Project.Analysis
import ModelSchema.Project.Basic
import ModelSchema.Project.Discovery
import ModelSchema.Project.Output
import ModelSchema.Project.Stages
import ModelSchema.Proofs.Allowlist
import ModelSchema.Proofs.Catalog
import ModelSchema.Proofs.Check.Counts
import ModelSchema.Proofs.Check.Coverage
import ModelSchema.Proofs.Check.Cycle
import ModelSchema.Proofs.Check.DerivedNames
import ModelSchema.Proofs.Check.Rules
import ModelSchema.Proofs.Check.StaticCycles
import ModelSchema.Proofs.Check.Trigrams
import ModelSchema.Proofs.Check.Verdict
import ModelSchema.Proofs.Check.Walk
import ModelSchema.Proofs.Config.Document
import ModelSchema.Proofs.Decimal.Rounding
import ModelSchema.Proofs.Diagnostic.Severity
import ModelSchema.Proofs.Gate
import ModelSchema.Proofs.Graph.Ancestors
import ModelSchema.Proofs.Graph.Fingerprint
import ModelSchema.Proofs.Graph.Growth
import ModelSchema.Proofs.Graph.Lineage
import ModelSchema.Proofs.Graph.Matching
import ModelSchema.Proofs.Graph.References
import ModelSchema.Proofs.Graph.Seed
import ModelSchema.Proofs.Graph.Ties
import ModelSchema.Proofs.Graph.WellFormed
import ModelSchema.Proofs.Interchange.Elements
import ModelSchema.Proofs.Interchange.Extraction
import ModelSchema.Proofs.Interchange.FieldTexts
import ModelSchema.Proofs.Interchange.ObjectModel
import ModelSchema.Proofs.Interchange.Walk
import ModelSchema.Proofs.Interchange.Xmi
import ModelSchema.Proofs.Json.Distinct
import ModelSchema.Proofs.Json.Doubles
import ModelSchema.Proofs.Json.Numerals
import ModelSchema.Proofs.Json.Records
import ModelSchema.Proofs.Json.RoundTrip
import ModelSchema.Proofs.Json.Strings
import ModelSchema.Proofs.Naming.Loops
import ModelSchema.Proofs.Naming.Runs
import ModelSchema.Proofs.Naming.Words
import ModelSchema.Proofs.Reading.Accounting
import ModelSchema.Proofs.Reading.Codes
import ModelSchema.Proofs.Reading.Declarations
import ModelSchema.Proofs.Reading.Dependencies
import ModelSchema.Proofs.Reading.Domains
import ModelSchema.Proofs.Reading.Effect
import ModelSchema.Proofs.Reading.Keys
import ModelSchema.Proofs.Reading.Layout
import ModelSchema.Proofs.Reading.Links
import ModelSchema.Proofs.Reading.Mirror
import ModelSchema.Proofs.Reading.Multiplicities
import ModelSchema.Proofs.Reading.Origin
import ModelSchema.Proofs.Reading.Passes
import ModelSchema.Proofs.Reading.Permutation
import ModelSchema.Proofs.Reading.Precedence
import ModelSchema.Proofs.Reading.Shapes
import ModelSchema.Proofs.Seeding.Arrangements
import ModelSchema.Proofs.Seeding.DataFile
import ModelSchema.Proofs.Seeding.LabelTexts
import ModelSchema.Proofs.Seeding.Mandatory
import ModelSchema.Proofs.Seeding.Order
import ModelSchema.Proofs.Seeding.Rows
import ModelSchema.Proofs.Seeding.Sessions
import ModelSchema.Proofs.Seeding.Translations
import ModelSchema.Proofs.Sql.Batches
import ModelSchema.Proofs.Sql.Clashes
import ModelSchema.Proofs.Sql.Complete
import ModelSchema.Proofs.Sql.Constraints
import ModelSchema.Proofs.Sql.ForeignKeys
import ModelSchema.Proofs.Sql.History
import ModelSchema.Proofs.Sql.Identifiers
import ModelSchema.Proofs.Sql.KeyGeneration
import ModelSchema.Proofs.Sql.KeyReferences
import ModelSchema.Proofs.Sql.Literals
import ModelSchema.Proofs.Sql.Overflow
import ModelSchema.Proofs.Sql.Phrases
import ModelSchema.Proofs.Sql.Separation
import ModelSchema.Proofs.Sql.Tables
import ModelSchema.Proofs.Steps
import ModelSchema.Proofs.Text.Bytes
import ModelSchema.Proofs.Toml.Strings
import ModelSchema.Reading.Assembly
import ModelSchema.Reading.Source
import ModelSchema.Report.Basic
import ModelSchema.Report.Text
import ModelSchema.Report.Timestamp
import ModelSchema.Seed
import ModelSchema.Sql.Dialect
import ModelSchema.Sql.Engine
import ModelSchema.Sql.Schema
import ModelSchema.Sql.Script
import ModelSchema.Sql.Seeding
import ModelSchema.Sql.Statement
import ModelSchema.Sql.Table
import ModelSchema.Stereotype
import ModelSchema.Text.Ascii
import ModelSchema.Text.Blank
import ModelSchema.Text.Letter
import ModelSchema.Text.Letter.Table
import ModelSchema.Toml.Literal
import ModelSchema.Toml.Parser
import ModelSchema.Toml.Printer
import ModelSchema.Toml.Record
import ModelSchema.Toml.Tree
import ModelSchema.Toml.Value
import ModelSchema.Xml.Character
import ModelSchema.Xml.CharacterData
import ModelSchema.Xml.Document
import ModelSchema.Xml.Node
import ModelSchema.Xml.Token

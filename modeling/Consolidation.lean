import Consolidation.Checkpoint.File
import Consolidation.Checkpoint.State
import Consolidation.Cluster.Basic
import Consolidation.Cluster.Clustering
import Consolidation.Cluster.Key
import Consolidation.Cluster.Strategy
import Consolidation.Collection.Dict
import Consolidation.CommandLine.Basic
import Consolidation.CommandLine.Options
import Consolidation.Digest.Sha256
import Consolidation.Embedding.Embedder
import Consolidation.Embedding.Hashed
import Consolidation.Embedding.Settings
import Consolidation.Extraction
import Consolidation.Files.Entry
import Consolidation.Files.Glob
import Consolidation.Files.Ignore
import Consolidation.Files.Scan
import Consolidation.FunctionRecord
import Consolidation.FunctionRecord.Json
import Consolidation.Http
import Consolidation.Json.Basic
import Consolidation.Json.Reader
import Consolidation.Json.Record
import Consolidation.Json.Writer
import Consolidation.Keywords
import Consolidation.Main
import Consolidation.Number.BinaryFormat
import Consolidation.Number.Decimal
import Consolidation.Number.Estimate
import Consolidation.Number.FixedPoint
import Consolidation.Number.Reading
import Consolidation.Number.Single
import Consolidation.Number.Width
import Consolidation.ParseError
import Consolidation.Proofs.Checkpoint.Calls
import Consolidation.Proofs.Checkpoint.Records
import Consolidation.Proofs.Checkpoint.RoundTrip
import Consolidation.Proofs.Cluster.Calls
import Consolidation.Proofs.Cluster.Coherence
import Consolidation.Proofs.Cluster.Donation
import Consolidation.Proofs.Cluster.Keys
import Consolidation.Proofs.Cluster.Members
import Consolidation.Proofs.Cluster.Order
import Consolidation.Proofs.Collection.Dict
import Consolidation.Proofs.Collection.Sorting
import Consolidation.Proofs.Embedding.Placement
import Consolidation.Proofs.Extraction
import Consolidation.Proofs.Files.Entry
import Consolidation.Proofs.Files.Order
import Consolidation.Proofs.Files.RelativeText
import Consolidation.Proofs.Files.Scan
import Consolidation.Proofs.Identifiers
import Consolidation.Proofs.InPlace
import Consolidation.Proofs.Json.Compact
import Consolidation.Proofs.Json.Numbers
import Consolidation.Proofs.Json.Record
import Consolidation.Proofs.Json.RoundTrip
import Consolidation.Proofs.Keywords
import Consolidation.Proofs.Number.BinaryFormat
import Consolidation.Proofs.Number.Bracket
import Consolidation.Proofs.Number.Estimate
import Consolidation.Proofs.Number.Rereading
import Consolidation.Proofs.Number.Shortest
import Consolidation.Proofs.ParseError
import Consolidation.Proofs.Proposal.Advisor
import Consolidation.Proofs.Proposal.Fence
import Consolidation.Proofs.Python.Agreement
import Consolidation.Proofs.Python.Blocks
import Consolidation.Proofs.Python.Chains
import Consolidation.Proofs.Python.Continuation
import Consolidation.Proofs.Python.Decisions
import Consolidation.Proofs.Python.DefinitionLines
import Consolidation.Proofs.Python.Definitions
import Consolidation.Proofs.Python.Docstrings
import Consolidation.Proofs.Python.Expressions
import Consolidation.Proofs.Python.Extents
import Consolidation.Proofs.Python.Flattening
import Consolidation.Proofs.Python.HeaderText
import Consolidation.Proofs.Python.HeaderTokens
import Consolidation.Proofs.Python.Headers
import Consolidation.Proofs.Python.Layout
import Consolidation.Proofs.Python.LineScan
import Consolidation.Proofs.Python.LiteralLines
import Consolidation.Proofs.Python.LogicalLines
import Consolidation.Proofs.Python.Nesting
import Consolidation.Proofs.Python.ParameterList
import Consolidation.Proofs.Python.Places
import Consolidation.Proofs.Python.Reading
import Consolidation.Proofs.Python.Respacing
import Consolidation.Proofs.Python.Signatures
import Consolidation.Proofs.Python.Spelling
import Consolidation.Proofs.Python.Statements
import Consolidation.Proofs.Python.TabStops
import Consolidation.Proofs.Python.Tabs
import Consolidation.Proofs.Python.TrimmedLines
import Consolidation.Proofs.Python.Wording
import Consolidation.Proofs.Report.Errors
import Consolidation.Proofs.Report.Tables
import Consolidation.Proofs.Run.Duplicates
import Consolidation.Proofs.Run.Grouping
import Consolidation.Proofs.Run.IndexHistory
import Consolidation.Proofs.Run.Indexing
import Consolidation.Proofs.Run.Interruption
import Consolidation.Proofs.Run.Inventory
import Consolidation.Proofs.Run.Limits
import Consolidation.Proofs.Run.Orderly
import Consolidation.Proofs.Run.Partition
import Consolidation.Proofs.Run.Proposals
import Consolidation.Proofs.Run.Provenance
import Consolidation.Proofs.Run.Regrouping
import Consolidation.Proofs.Run.Reopening
import Consolidation.Proofs.Run.Repetition
import Consolidation.Proofs.Run.Shadowing
import Consolidation.Proofs.Run.Survey
import Consolidation.Proofs.Run.Tables
import Consolidation.Proofs.Run.Visits
import Consolidation.Proofs.Run.Workers
import Consolidation.Proofs.Similarity.Deterministic
import Consolidation.Proofs.Similarity.Search
import Consolidation.Proofs.Similarity.StoreFile
import Consolidation.Proofs.Similarity.StoreInPlace
import Consolidation.Proofs.Similarity.StoreIndex
import Consolidation.Proofs.Text.Lines
import Consolidation.Proofs.Text.Utf8
import Consolidation.Proposal.Advisor
import Consolidation.Proposal.Fence
import Consolidation.Proposal.Formatter
import Consolidation.Proposal.Generator
import Consolidation.Proposal.Prompt
import Consolidation.Python.Definition
import Consolidation.Python.Grammar
import Consolidation.Python.Indentation
import Consolidation.Python.Lexer
import Consolidation.Python.LineScan
import Consolidation.Python.Parsing
import Consolidation.Python.SourceFault
import Consolidation.Python.StringLiteral
import Consolidation.Python.Token
import Consolidation.Python.Tree
import Consolidation.Report.Basic
import Consolidation.Report.Json
import Consolidation.Report.Markdown
import Consolidation.Run.Basic
import Consolidation.Run.Grouping
import Consolidation.Run.Indexing
import Consolidation.Run.Inventory
import Consolidation.Run.Proposals
import Consolidation.Run.Wiring
import Consolidation.Settings.Basic
import Consolidation.Settings.Check
import Consolidation.Settings.Document
import Consolidation.Settings.Environment
import Consolidation.Settings.Fault
import Consolidation.Similarity.DocumentStore
import Consolidation.Similarity.Index
import Consolidation.Similarity.StoreError
import Consolidation.Similarity.VectorIndex
import Consolidation.Text.CaseMap
import Consolidation.Text.CharClass
import Consolidation.Text.CharSet
import Consolidation.Text.Duration
import Consolidation.Text.Letters
import Consolidation.Text.Lines
import Consolidation.Text.Marks
import Consolidation.Text.Quoted
import Consolidation.Text.Utf8
import Consolidation.Text.WordBreak
import Consolidation.Toml.Basic
import Consolidation.Toml.Number
import Consolidation.Toml.Reader
import Consolidation.Toml.Section
import Consolidation.Toml.Table
import Consolidation.Toml.Text

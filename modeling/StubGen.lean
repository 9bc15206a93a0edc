import StubGen.Command.Function
import StubGen.Command.Generate
import StubGen.Command.Line
import StubGen.Command.Output
import StubGen.Command.RenderedSpec
import StubGen.Command.Run
import StubGen.Command.Session
import StubGen.Command.Setup
import StubGen.Config.Address
import StubGen.Config.Basic
import StubGen.Config.Context
import StubGen.Config.File
import StubGen.Decimal.Shortest
import StubGen.DefinitionSet
import StubGen.Disk.Basic
import StubGen.Disk.Changes
import StubGen.Disk.Path
import StubGen.Disk.Tree
import StubGen.Error
import StubGen.FunctionPath
import StubGen.Identifier
import StubGen.Json.Basic
import StubGen.Json.Number
import StubGen.Json.Printer
import StubGen.Json.Reader
import StubGen.Json.Token
import StubGen.Main
import StubGen.NamespacePath
import StubGen.Package.AtomicWrite
import StubGen.Package.Batch
import StubGen.Package.Generation
import StubGen.Package.SpecCache
import StubGen.Package.Transaction
import StubGen.Package.Writer
import StubGen.Parameters
import StubGen.Proofs.Command.FunctionPaths
import StubGen.Proofs.Command.Payload
import StubGen.Proofs.Command.Setup
import StubGen.Proofs.Config.Address
import StubGen.Proofs.Config.File
import StubGen.Proofs.Config.Storing
import StubGen.Proofs.Disk.Likeness
import StubGen.Proofs.Disk.Paths
import StubGen.Proofs.Disk.Tree
import StubGen.Proofs.Disk.Walk
import StubGen.Proofs.Json.Places
import StubGen.Proofs.Json.Values
import StubGen.Proofs.Package.Accounting
import StubGen.Proofs.Package.Aggregation
import StubGen.Proofs.Package.Aggregator
import StubGen.Proofs.Package.AllOrNothing
import StubGen.Proofs.Package.AtomicWrite
import StubGen.Proofs.Package.Beginning
import StubGen.Proofs.Package.Bindings
import StubGen.Proofs.Package.Boundary
import StubGen.Proofs.Package.CarryingOn
import StubGen.Proofs.Package.Clearing
import StubGen.Proofs.Package.Composition
import StubGen.Proofs.Package.Confinement
import StubGen.Proofs.Package.Contexts
import StubGen.Proofs.Package.Directories
import StubGen.Proofs.Package.Effects
import StubGen.Proofs.Package.Footprint
import StubGen.Proofs.Package.Imports
import StubGen.Proofs.Package.Isolation
import StubGen.Proofs.Package.Lockstep
import StubGen.Proofs.Package.Narrowing
import StubGen.Proofs.Package.PathText
import StubGen.Proofs.Package.Refusals
import StubGen.Proofs.Package.Regeneration
import StubGen.Proofs.Package.Rollback
import StubGen.Proofs.Package.Runs
import StubGen.Proofs.Package.SchemaLeaves
import StubGen.Proofs.Package.Transaction
import StubGen.Proofs.Package.TypeModules
import StubGen.Proofs.Reference.Agreement
import StubGen.Proofs.Reference.Apply
import StubGen.Proofs.Reference.Inlining
import StubGen.Proofs.Reference.Settled
import StubGen.Proofs.Reference.Unfolding
import StubGen.Proofs.Result
import StubGen.Proofs.Schema.Claims
import StubGen.Proofs.Schema.Cleaning
import StubGen.Proofs.Schema.Closed
import StubGen.Proofs.Schema.Composition
import StubGen.Proofs.Schema.Depth
import StubGen.Proofs.Schema.Enumerations
import StubGen.Proofs.Schema.FieldKeys
import StubGen.Proofs.Schema.Layout
import StubGen.Proofs.Schema.Legality
import StubGen.Proofs.Schema.Limit
import StubGen.Proofs.Schema.Merging
import StubGen.Proofs.Schema.Names
import StubGen.Proofs.Schema.Nesting
import StubGen.Proofs.Schema.Order
import StubGen.Proofs.Schema.Origins
import StubGen.Proofs.Schema.Pointers
import StubGen.Proofs.Schema.RecordText
import StubGen.Proofs.Schema.Records
import StubGen.Proofs.Schema.Rendering
import StubGen.Proofs.Schema.Rereading
import StubGen.Proofs.Schema.Spelling
import StubGen.Proofs.Spec.Kinds
import StubGen.Proofs.Spec.Normal
import StubGen.Proofs.Spec.RoundTrip
import StubGen.Proofs.Spec.Stable
import StubGen.Proofs.Stub.Annotations
import StubGen.Proofs.Stub.Arrays
import StubGen.Proofs.Stub.Calls
import StubGen.Proofs.Stub.Columns
import StubGen.Proofs.Stub.Definitions
import StubGen.Proofs.Stub.Envelope
import StubGen.Proofs.Stub.Fields
import StubGen.Proofs.Stub.Filters
import StubGen.Proofs.Stub.Modules
import StubGen.Proofs.Stub.Quoted
import StubGen.Proofs.Stub.RowReading
import StubGen.Proofs.Stub.Rows
import StubGen.Proofs.Stub.Sheets
import StubGen.Proofs.Stub.Signatures
import StubGen.Proofs.Stub.Tables
import StubGen.Proofs.Stub.TypeNames
import StubGen.Proofs.Stub.Typing
import StubGen.Proofs.Stub.Unions
import StubGen.Proofs.Text.Characters
import StubGen.Proofs.Text.Escapes
import StubGen.Proofs.Text.Lines
import StubGen.Proofs.Text.Segments
import StubGen.Proofs.Toml.Documents
import StubGen.Proofs.Toml.Quotes
import StubGen.Query
import StubGen.Quoting
import StubGen.Reference
import StubGen.Schema.CommandEngine
import StubGen.Schema.Declaration
import StubGen.Schema.Declarations
import StubGen.Schema.Definition
import StubGen.Schema.Resolution
import StubGen.Schema.TypeExpr
import StubGen.Service.Basic
import StubGen.Service.Origin
import StubGen.Service.Url
import StubGen.Shell.Arithmetic
import StubGen.Shell.Builtin
import StubGen.Shell.Bytes
import StubGen.Shell.Condition
import StubGen.Shell.Copying
import StubGen.Shell.Effect
import StubGen.Shell.Expansion
import StubGen.Shell.Formatting
import StubGen.Shell.Options
import StubGen.Shell.Pattern
import StubGen.Shell.Programs
import StubGen.Shell.Run
import StubGen.Shell.Script
import StubGen.Shell.Session
import StubGen.Shell.Token
import StubGen.Shell.Tools
import StubGen.Shell.Word
import StubGen.Spec.Basic
import StubGen.Spec.Decode
import StubGen.Spec.Encode
import StubGen.Spec.View
import StubGen.Stub.Basic
import StubGen.Stub.ColumnType
import StubGen.Stub.Function
import StubGen.Stub.Package
import StubGen.Stub.SchemaType
import StubGen.Stub.Table
import StubGen.Stub.Variable
import StubGen.Template.Basic
import StubGen.Template.Catalog
import StubGen.Template.Functions
import StubGen.Template.Package
import StubGen.Template.Sections
import StubGen.Template.Selector
import StubGen.Template.Source
import StubGen.Text.Alphabetic
import StubGen.Text.Blank
import StubGen.Text.CaseMapping
import StubGen.Text.Numeric
import StubGen.Text.Range
import StubGen.Text.Split
import StubGen.Text.Uuid
import StubGen.Text.Visible
import StubGen.Text.Word
import StubGen.Toml.Basic
import StubGen.Toml.Reader
import StubGen.Toml.Text
import StubGen.TypeName
import StubGen.Typing

import EntitySchema.Calendar
import EntitySchema.CommandLine.Arguments
import EntitySchema.CommandLine.Basic
import EntitySchema.CommandLine.Failure
import EntitySchema.CommandLine.Help
import EntitySchema.CommandLine.Run
import EntitySchema.CommandLine.Similar
import EntitySchema.Compilation
import EntitySchema.Configuration.Basic
import EntitySchema.Configuration.Reading
import EntitySchema.Configuration.Search
import EntitySchema.DefaultValue
import EntitySchema.Diagnostic.Basic
import EntitySchema.Diagnostic.Encoding
import EntitySchema.Diagnostic.Issue
import EntitySchema.Discovery
import EntitySchema.Dispatch.Failure
import EntitySchema.Dispatch.Registry
import EntitySchema.Dispatch.ScalarCodec
import EntitySchema.Dispatch.Serializer
import EntitySchema.Dispatch.Traced
import EntitySchema.Dispatch.TypeToken
import EntitySchema.Dispatch.Value
import EntitySchema.Document.Basic
import EntitySchema.Document.Reading
import EntitySchema.Entity.Basic
import EntitySchema.Entity.Definition
import EntitySchema.Entity.Field
import EntitySchema.Entity.Index
import EntitySchema.Entity.Lookup
import EntitySchema.Entity.Naming
import EntitySchema.Entity.OfDocument
import EntitySchema.FieldExpr.Basic
import EntitySchema.FieldExpr.Reader
import EntitySchema.FieldExpr.Segment
import EntitySchema.FileTree
import EntitySchema.Glob.Basic
import EntitySchema.Glob.Reader
import EntitySchema.Glob.Search
import EntitySchema.Json.Basic
import EntitySchema.Json.Literal
import EntitySchema.Json.Reader
import EntitySchema.Json.Writer
import EntitySchema.Log
import EntitySchema.Main
import EntitySchema.Model
import EntitySchema.Model.Encoding
import EntitySchema.Number.Arithmetic
import EntitySchema.Number.Basic
import EntitySchema.Number.OfText
import EntitySchema.Number.Read
import EntitySchema.Number.Shortest
import EntitySchema.Number.Text
import EntitySchema.Path
import EntitySchema.Proofs.BigintDefaults
import EntitySchema.Proofs.Calendar
import EntitySchema.Proofs.ColumnDefaults
import EntitySchema.Proofs.Compilation
import EntitySchema.Proofs.Contents
import EntitySchema.Proofs.Dates
import EntitySchema.Proofs.Declarations
import EntitySchema.Proofs.Defaults
import EntitySchema.Proofs.Diagnostics
import EntitySchema.Proofs.Dispatch.ClassNames
import EntitySchema.Proofs.Dispatch.Containers
import EntitySchema.Proofs.Dispatch.Elements
import EntitySchema.Proofs.Dispatch.Ownership
import EntitySchema.Proofs.Dispatch.Parts
import EntitySchema.Proofs.Dispatch.Registry
import EntitySchema.Proofs.Dispatch.RoundTrip
import EntitySchema.Proofs.Dispatch.Routing
import EntitySchema.Proofs.Dispatch.Runs
import EntitySchema.Proofs.Dispatch.Scalars
import EntitySchema.Proofs.Dispatch.TypeToken
import EntitySchema.Proofs.Dispatch.UnknownTypes
import EntitySchema.Proofs.DistinctNames
import EntitySchema.Proofs.Document
import EntitySchema.Proofs.DocumentOrder
import EntitySchema.Proofs.DocumentRemoval
import EntitySchema.Proofs.Durations
import EntitySchema.Proofs.EntityOrder
import EntitySchema.Proofs.FieldExpr.Clauses
import EntitySchema.Proofs.FieldExpr.Pieces
import EntitySchema.Proofs.FieldExpr.Segments
import EntitySchema.Proofs.FieldExpr.Separators
import EntitySchema.Proofs.FieldNames
import EntitySchema.Proofs.Fields
import EntitySchema.Proofs.Frame
import EntitySchema.Proofs.IndexRules
import EntitySchema.Proofs.Indexes
import EntitySchema.Proofs.Lines.Basic
import EntitySchema.Proofs.Lines.Documents
import EntitySchema.Proofs.Lines.Entities
import EntitySchema.Proofs.Lines.Expressions
import EntitySchema.Proofs.Lines.Fields
import EntitySchema.Proofs.Lines.Passes
import EntitySchema.Proofs.Lines.Relations
import EntitySchema.Proofs.Lines.Report
import EntitySchema.Proofs.Lookup
import EntitySchema.Proofs.ModuleOrder
import EntitySchema.Proofs.Modules
import EntitySchema.Proofs.NameOwners
import EntitySchema.Proofs.Numerals
import EntitySchema.Proofs.Pointers
import EntitySchema.Proofs.QuotedDefaults
import EntitySchema.Proofs.Reading
import EntitySchema.Proofs.Relations.Changes
import EntitySchema.Proofs.Relations.Counterparts
import EntitySchema.Proofs.Relations.Definitions
import EntitySchema.Proofs.Relations.Frame
import EntitySchema.Proofs.Relations.Halves
import EntitySchema.Proofs.Relations.HiddenKeys
import EntitySchema.Proofs.Relations.Independence
import EntitySchema.Proofs.Relations.Keys
import EntitySchema.Proofs.Relations.Linked
import EntitySchema.Proofs.Relations.NullableKeys
import EntitySchema.Proofs.Relations.Origins
import EntitySchema.Proofs.Relations.Pairs
import EntitySchema.Proofs.Relations.Run
import EntitySchema.Proofs.Relations.Step
import EntitySchema.Proofs.Relations.Twins
import EntitySchema.Proofs.Shadowing
import EntitySchema.Proofs.Suggestion
import EntitySchema.Proofs.TableNames
import EntitySchema.Proofs.Tables
import EntitySchema.Proofs.TextOrder
import EntitySchema.Proofs.Timestamps
import EntitySchema.Proofs.TypeExpr.Building
import EntitySchema.Proofs.TypeExpr.Derivations
import EntitySchema.Proofs.TypeExpr.Grammar
import EntitySchema.Proofs.TypeExpr.Reading
import EntitySchema.Proofs.TypeExpr.Rendering
import EntitySchema.Proofs.Types.Closed
import EntitySchema.Proofs.Types.Names
import EntitySchema.Proofs.Types.Pass
import EntitySchema.Proofs.Types.WellFormed
import EntitySchema.Proofs.Uniqueness
import EntitySchema.Proofs.WholeArithmetic
import EntitySchema.Proofs.WholeNumbers
import EntitySchema.Proofs.WholeText
import EntitySchema.Proofs.Workspace
import EntitySchema.Proofs.Yaml.Keys
import EntitySchema.Report
import EntitySchema.Resolution.Indexes
import EntitySchema.Resolution.Relations
import EntitySchema.Resolution.Types
import EntitySchema.Resolution.Uniqueness
import EntitySchema.Resolution.Workspace
import EntitySchema.Suggestion
import EntitySchema.Table.Basic
import EntitySchema.Table.Encoding
import EntitySchema.Table.OfModel
import EntitySchema.Text.Blank
import EntitySchema.Text.Collation
import EntitySchema.Text.Lines
import EntitySchema.Text.LowerCase
import EntitySchema.Text.Units
import EntitySchema.TypeDef
import EntitySchema.TypeExpr.Basic
import EntitySchema.TypeExpr.Build
import EntitySchema.TypeExpr.Reader
import EntitySchema.Yaml.BlockText
import EntitySchema.Yaml.Document
import EntitySchema.Yaml.Folding
import EntitySchema.Yaml.Layout.Basic
import EntitySchema.Yaml.Layout.OfLexemes
import EntitySchema.Yaml.Lexeme.Basic
import EntitySchema.Yaml.Lexeme.OfText
import EntitySchema.Yaml.Node.Basic
import EntitySchema.Yaml.Node.OfLayout
import EntitySchema.Yaml.Node.Properties
import EntitySchema.Yaml.Problem
import EntitySchema.Yaml.Scalar
import EntitySchema.Yaml.Tag

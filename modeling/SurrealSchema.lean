import SurrealSchema.Binary64.Basic
import SurrealSchema.Binary64.Decimal
import SurrealSchema.Catalog
import SurrealSchema.Closure
import SurrealSchema.Conventions
import SurrealSchema.Ddl.Clause
import SurrealSchema.Ddl.Definition
import SurrealSchema.Ddl.Document
import SurrealSchema.Ddl.Statement
import SurrealSchema.Entries
import SurrealSchema.Failure
import SurrealSchema.Info.Database
import SurrealSchema.Info.Field
import SurrealSchema.Info.Script
import SurrealSchema.Info.Tables
import SurrealSchema.Kind
import SurrealSchema.NameStyle
import SurrealSchema.Query.Clause
import SurrealSchema.Query.Head
import SurrealSchema.Query.Parse
import SurrealSchema.Query.Selection
import SurrealSchema.Query.Token
import SurrealSchema.Schema
import SurrealSchema.Settings
import SurrealSchema.Shape.Basic
import SurrealSchema.Shape.Distinct
import SurrealSchema.Shape.OfQuery
import SurrealSchema.Shape.Render
import SurrealSchema.Table
import SurrealSchema.Text.Case
import SurrealSchema.Text.CaseRuns
import SurrealSchema.Text.CasedRanges
import SurrealSchema.Text.Class
import SurrealSchema.Text.Keyword
import SurrealSchema.Text.Lines
import SurrealSchema.Text.PrintableRanges
import SurrealSchema.Text.Quoted
import SurrealSchema.Text.Scan
import SurrealSchema.Text.Trim
import SurrealSchema.Text.WordRanges
import SurrealSchema.Token
import SurrealSchema.TypeExpr.Basic
import SurrealSchema.TypeExpr.Descriptor
import SurrealSchema.TypeExpr.Parser
import SurrealSchema.TypeExpr.Token
import SurrealSchema.Value
import SurrealSchema.Proofs.Ddl.Lines
import SurrealSchema.Proofs.Ddl.Blocks
import SurrealSchema.Proofs.Ddl.Checked
import SurrealSchema.Proofs.Ddl.Invariant
import SurrealSchema.Proofs.Info.Export
import SurrealSchema.Proofs.Query.Canonical
import SurrealSchema.Proofs.Query.Clauses
import SurrealSchema.Proofs.Query.Expressions
import SurrealSchema.Proofs.Query.RoundTrip
import SurrealSchema.Proofs.Shape.Paths
import SurrealSchema.Proofs.Shape.Select
import SurrealSchema.Proofs.Shape.Subfields
import SurrealSchema.Proofs.Shape.Links
import SurrealSchema.Proofs.Catalog
import SurrealSchema.Proofs.Closure
import SurrealSchema.Proofs.Info.Pointers
import SurrealSchema.Proofs.Schema
import SurrealSchema.Proofs.Ddl.CommentLines
import SurrealSchema.Proofs.Ddl.Composition
import SurrealSchema.Proofs.Ddl.TypedFields
import SurrealSchema.Proofs.Info.FieldForms
import SurrealSchema.Proofs.Shape.Conditions
import SurrealSchema.Proofs.Ddl.Growth
import SurrealSchema.Proofs.Ddl.InlineComments
import SurrealSchema.Proofs.Query.HeadEnds
import SurrealSchema.Proofs.Shape.Heads
import SurrealSchema.Proofs.Ddl.Alike
import SurrealSchema.Proofs.Ddl.Phrases
import SurrealSchema.Proofs.Ddl.TablePhrases
import SurrealSchema.Proofs.Info.Overwrite
import SurrealSchema.Proofs.Info.OtherKinds
import SurrealSchema.Proofs.Info.Rewriting
import SurrealSchema.Proofs.Info.Options
import SurrealSchema.Proofs.Recognition
import SurrealSchema.Proofs.Languages
import SurrealSchema.Proofs.TypeExpr.Printing
import SurrealSchema.Proofs.Info.Keyed
import SurrealSchema.Proofs.Lookup
import SurrealSchema.Proofs.Ddl.QuotedNames
import SurrealSchema.Proofs.QuotedNames
import SurrealSchema.Proofs.Ddl.Splitting
import SurrealSchema.Proofs.Ddl.TableLayouts
import SurrealSchema.Proofs.Ddl.FurtherClauses
import SurrealSchema.Proofs.Ddl.FieldLayouts
import SurrealSchema.Proofs.Ddl.Places
import SurrealSchema.Proofs.Ddl.Headings
import SurrealSchema.Proofs.TypeExpr.Optionality
import SurrealSchema.Proofs.Ddl.QuotedPayloads
import SurrealSchema.Proofs.Ddl.DefaultEnds
import SurrealSchema.Proofs.Ddl.QuotedDefaults
import SurrealSchema.Proofs.TypeExpr.Alternatives
import SurrealSchema.Proofs.Registration
import SurrealSchema.Proofs.Shape.Selections
import SurrealSchema.Proofs.Shape.Writes
import SurrealSchema.Proofs.Shape.Wildcards
import SurrealSchema.Proofs.Shape.Markers
import SurrealSchema.Proofs.Info.Providers
import SurrealSchema.Proofs.Ddl.FieldKeys
import SurrealSchema.Proofs.QuotedFields
import SurrealSchema.Proofs.Shape.Rendering
import SurrealSchema.Proofs.Lexemes
import SurrealSchema.Proofs.TypeExpr.Lexemes
import SurrealSchema.Proofs.Query.Lexemes

import RubyScaffold.Class.Fault
import RubyScaffold.Class.Outline
import RubyScaffold.Class.Spec
import RubyScaffold.Code.ClassBody
import RubyScaffold.Code.Document
import RubyScaffold.Code.Preamble
import RubyScaffold.Code.Statement
import RubyScaffold.Decimal.Binary64
import RubyScaffold.Decimal.Notation
import RubyScaffold.Decimal.Shortest
import RubyScaffold.Files.Generated
import RubyScaffold.Files.Path
import RubyScaffold.Files.Tree
import RubyScaffold.Generator
import RubyScaffold.Grammar.Argument
import RubyScaffold.Grammar.Body
import RubyScaffold.Grammar.Character
import RubyScaffold.Grammar.Charset
import RubyScaffold.Grammar.Check
import RubyScaffold.Grammar.Definition
import RubyScaffold.Grammar.Mode
import RubyScaffold.Grammar.Numeral
import RubyScaffold.Grammar.Operation
import RubyScaffold.Grammar.Parameter
import RubyScaffold.Grammar.Pattern
import RubyScaffold.Grammar.Primary
import RubyScaffold.Grammar.Quoted
import RubyScaffold.Grammar.Rule
import RubyScaffold.Grammar.Scan
import RubyScaffold.Grammar.Sign
import RubyScaffold.Grammar.State
import RubyScaffold.Grammar.Statement
import RubyScaffold.Grammar.Token
import RubyScaffold.Json.Cursor
import RubyScaffold.Json.Number
import RubyScaffold.Json.Reader
import RubyScaffold.Json.Text
import RubyScaffold.Json.Writer
import RubyScaffold.Layout.Fragment
import RubyScaffold.Layout.Page
import RubyScaffold.Manifest.Basic
import RubyScaffold.Manifest.Decode
import RubyScaffold.Manifest.Error
import RubyScaffold.Manifest.File
import RubyScaffold.Manifest.Mismatch
import RubyScaffold.Manifest.Reading
import RubyScaffold.Manifest.Writing
import RubyScaffold.Naming.ConstantPath
import RubyScaffold.Naming.Keyword
import RubyScaffold.Naming.SnakeCase
import RubyScaffold.Naming.VariableName
import RubyScaffold.OrderedMap
import RubyScaffold.Proofs.Class.Soundness
import RubyScaffold.Proofs.Code.Blocks
import RubyScaffold.Proofs.Code.Comments
import RubyScaffold.Proofs.Code.Determined
import RubyScaffold.Proofs.Code.Lines
import RubyScaffold.Proofs.Code.Marked
import RubyScaffold.Proofs.Code.Reference
import RubyScaffold.Proofs.Json.Breaks
import RubyScaffold.Proofs.Json.Numerals
import RubyScaffold.Proofs.Json.NumericText
import RubyScaffold.Proofs.Json.Quoted
import RubyScaffold.Proofs.Json.Reading
import RubyScaffold.Proofs.Json.Steps
import RubyScaffold.Proofs.Layout.Rows
import RubyScaffold.Proofs.Manifest.Decoding
import RubyScaffold.Proofs.Manifest.Legible
import RubyScaffold.Proofs.Manifest.NonFinite
import RubyScaffold.Proofs.Manifest.RoundTrip
import RubyScaffold.Proofs.Manifest.Validation
import RubyScaffold.Proofs.Text.Joins
import RubyScaffold.Renderer
import RubyScaffold.Settings
import RubyScaffold.Text.Bytes
import RubyScaffold.Text.Cursor
import RubyScaffold.Text.NameSpan
import RubyScaffold.Text.Pieces
import RubyScaffold.Text.Replacement
import RubyScaffold.Toml.Fault
import RubyScaffold.Toml.Reader
import RubyScaffold.Toml.Scalar
import RubyScaffold.Toml.Table
import RubyScaffold.Toml.Text
import RubyScaffold.Tree
import RubyScaffold.Unicode.Alphabetic
import RubyScaffold.Unicode.Blank
import RubyScaffold.Unicode.Lowercase
import RubyScaffold.Unicode.Lowering
import RubyScaffold.Unicode.Numeric
import RubyScaffold.Unicode.Runs
import RubyScaffold.Unicode.Uppercase
import RubyScaffold.Unicode.Visible
import RubyScaffold.Validation.Interpreter
import RubyScaffold.Validation.Parser
import RubyScaffold.Validation.Report
import RubyScaffold.Proofs.Fallible
import RubyScaffold.Proofs.Files.Places
import RubyScaffold.Proofs.Files.Storing
import RubyScaffold.Proofs.Generation.AllOrNothing
import RubyScaffold.Proofs.Generation.Runs
import RubyScaffold.Proofs.Json.Shown
import RubyScaffold.Proofs.Json.Words
import RubyScaffold.Proofs.Manifest.Schema
import RubyScaffold.Proofs.Manifest.Fields
import RubyScaffold.Proofs.Manifest.Records
import RubyScaffold.Proofs.Manifest.Sections
import RubyScaffold.Proofs.Manifest.JsonSchema
import RubyScaffold.Proofs.Manifest.FormatsAgree
import RubyScaffold.Proofs.Naming.FilePath
import RubyScaffold.Proofs.Generation.Confined
import RubyScaffold.Proofs.Generation.Rendering
import RubyScaffold.Proofs.Code.CommentLines
import RubyScaffold.Proofs.Text.Search
import RubyScaffold.Proofs.Text.Cursors
import RubyScaffold.Proofs.Manifest.Offenders
import RubyScaffold.Proofs.Text.Literals
import RubyScaffold.Proofs.Json.Progress
import RubyScaffold.Proofs.Json.Places
import RubyScaffold.Proofs.Toml.Progress
import RubyScaffold.Proofs.Toml.Tables
import RubyScaffold.Proofs.Toml.Places
import RubyScaffold.Proofs.Manifest.Labels
import RubyScaffold.Proofs.OrderedMap
import RubyScaffold.Proofs.Class.Building
import RubyScaffold.Proofs.Code.Constructor
import RubyScaffold.Proofs.Code.Inventory
import RubyScaffold.Proofs.Layout.Spacing
import RubyScaffold.Proofs.Code.Shape
import RubyScaffold.Proofs.Manifest.SyntaxLabels
import RubyScaffold.Proofs.Text.Commas
import RubyScaffold.Proofs.Layout.Levels
import RubyScaffold.Proofs.Layout.Scopes
import RubyScaffold.Proofs.Code.CommentOrder
import RubyScaffold.Proofs.Code.FieldText
import RubyScaffold.Generator.Source
import RubyScaffold.Proofs.Text.Pairs
import RubyScaffold.Proofs.Naming.Grouping
import RubyScaffold.Proofs.Code.Sections
import RubyScaffold.Proofs.Code.GivenLines
import RubyScaffold.Proofs.Generation.Options
import RubyScaffold.Proofs.Writings
import RubyScaffold.Proofs.Manifest.Members
import RubyScaffold.Proofs.Class.Redeclared
import RubyScaffold.Proofs.Naming.CamelCase
import RubyScaffold.Proofs.Text.NameSpans
import RubyScaffold.Proofs.Text.LineOffsets
import RubyScaffold.Proofs.Layout.Joining
import RubyScaffold.Proofs.Code.FlatBody

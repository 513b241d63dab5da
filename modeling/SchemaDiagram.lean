import SchemaDiagram.CommandLine
import SchemaDiagram.CommandLine.Options
import SchemaDiagram.Compilation
import SchemaDiagram.Compilation.Written
import SchemaDiagram.Decimal.Shortest
import SchemaDiagram.Diagnostic
import SchemaDiagram.Diagram
import SchemaDiagram.Diagram.Element
import SchemaDiagram.Document
import SchemaDiagram.Document.Source
import SchemaDiagram.Grammar
import SchemaDiagram.Grammar.Block
import SchemaDiagram.Grammar.Enumeration
import SchemaDiagram.Grammar.Expected
import SchemaDiagram.Grammar.FieldType
import SchemaDiagram.Grammar.Path
import SchemaDiagram.Grammar.QualifiedName
import SchemaDiagram.Grammar.Reference
import SchemaDiagram.Grammar.Setting
import SchemaDiagram.Grammar.Table
import SchemaDiagram.Json
import SchemaDiagram.Json.Float
import SchemaDiagram.Json.Reader
import SchemaDiagram.Json.Writer
import SchemaDiagram.Layout
import SchemaDiagram.Layout.Reader
import SchemaDiagram.Locator
import SchemaDiagram.Main
import SchemaDiagram.Mermaid
import SchemaDiagram.Parser
import SchemaDiagram.Parser.Progress
import SchemaDiagram.Position
import SchemaDiagram.Schema
import SchemaDiagram.Session
import SchemaDiagram.Text.Blank
import SchemaDiagram.Text.Cased
import SchemaDiagram.Text.CharSet
import SchemaDiagram.Text.Columns
import SchemaDiagram.Text.Columns.Sequence
import SchemaDiagram.Text.Columns.Tables
import SchemaDiagram.Text.Columns.Width
import SchemaDiagram.Text.Letter
import SchemaDiagram.Text.Lines
import SchemaDiagram.Text.LowerCase
import SchemaDiagram.Text.Printable
import SchemaDiagram.Text.Quoted
import SchemaDiagram.Token
import SchemaDiagram.Token.Lexeme
import SchemaDiagram.Token.Lexing
import SchemaDiagram.Token.Quotes
import SchemaDiagram.Proofs.Token.Spelling
import SchemaDiagram.Proofs.Token.Tiling
import SchemaDiagram.Proofs.Grammar.Phrase
import SchemaDiagram.Proofs.Grammar.Rule
import SchemaDiagram.Proofs.Grammar.Sound
import SchemaDiagram.Proofs.Grammar.Complete
import SchemaDiagram.Proofs.Parser.Local
import SchemaDiagram.Proofs.Grammar.Locality
import SchemaDiagram.Proofs.Grammar.Completion
import SchemaDiagram.Proofs.Grammar.Free
import SchemaDiagram.Proofs.Grammar.Viable
import SchemaDiagram.Proofs.Document.Mistake
import SchemaDiagram.Proofs.Token.Reading
import SchemaDiagram.Proofs.Token.Writing
import SchemaDiagram.Proofs.Document.Grouping
import SchemaDiagram.Proofs.Document.Outline
import SchemaDiagram.Proofs.Document.RoundTrip
import SchemaDiagram.Proofs.Compilation.Outcome
import SchemaDiagram.Proofs.Diagram.NodeName
import SchemaDiagram.Proofs.Diagram.Nodes
import SchemaDiagram.Proofs.Session.Marking
import SchemaDiagram.Proofs.Session.Selection
import SchemaDiagram.Proofs.Locator.Block
import SchemaDiagram.Proofs.Text.LowerCase
import SchemaDiagram.Proofs.Locator.Layout
import SchemaDiagram.Proofs.Token.Piece
import SchemaDiagram.Proofs.Document.Places
import SchemaDiagram.Proofs.Locator.Agreement
import SchemaDiagram.Proofs.Diagram.Distinct
import SchemaDiagram.Proofs.Parser.Uniform
import SchemaDiagram.Proofs.Grammar.Uniform
import SchemaDiagram.Proofs.Token.Order
import SchemaDiagram.Proofs.Document.Shape
import SchemaDiagram.Proofs.Token.Concat
import SchemaDiagram.Proofs.Grammar.Ends
import SchemaDiagram.Proofs.Document.Concat
import SchemaDiagram.Proofs.Document.Detach
import SchemaDiagram.Proofs.Document.Detached
import SchemaDiagram.Proofs.Document.References
import SchemaDiagram.Proofs.Schema.OwnName
import SchemaDiagram.Proofs.Diagram.Edges
import SchemaDiagram.Proofs.Diagram.Elsewhere
import SchemaDiagram.Proofs.Session.Run
import SchemaDiagram.Proofs.Session.Interruption
import SchemaDiagram.Proofs.Locator.Inside
import SchemaDiagram.Proofs.CommandLine.Arguments
import SchemaDiagram.Proofs.CommandLine.Outcome
import SchemaDiagram.Proofs.Json.Blanks
import SchemaDiagram.Proofs.CommandLine.Agreement
import SchemaDiagram.Proofs.Token.Lines
import SchemaDiagram.Proofs.Document.Listing
import SchemaDiagram.Proofs.Locator.Listing
import SchemaDiagram.Proofs.Locator.Access
import SchemaDiagram.Proofs.Locator.Extent
import SchemaDiagram.Proofs.Locator.Elsewhere
import SchemaDiagram.Proofs.Session.Activation
import SchemaDiagram.Proofs.Grammar.Passed
import SchemaDiagram.Proofs.Document.Skipped
import SchemaDiagram.Proofs.Document.PathNames
import SchemaDiagram.Proofs.Token.Prefix
import SchemaDiagram.Proofs.Token.Printing
import SchemaDiagram.Proofs.Token.Justified
import SchemaDiagram.Proofs.Grammar.ArgumentText
import SchemaDiagram.Proofs.Grammar.Arguments
import SchemaDiagram.Proofs.Token.QuoteStyle
import SchemaDiagram.Proofs.Diagram.Image
import SchemaDiagram.Proofs.Document.Formed
import SchemaDiagram.Proofs.Document.Schemas
import SchemaDiagram.Proofs.Text.Squeeze
import SchemaDiagram.Proofs.Mermaid.Line
import SchemaDiagram.Proofs.Mermaid.Reading
import SchemaDiagram.Proofs.Mermaid.Items
import SchemaDiagram.Proofs.Layout.Bounds
import SchemaDiagram.Proofs.Parser.Cursor
import SchemaDiagram.Proofs.Parser.Follows
import SchemaDiagram.Proofs.Grammar.Walk
import SchemaDiagram.Proofs.Document.Progress

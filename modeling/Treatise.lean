import Treatise.CommandLine.Arguments
import Treatise.CommandLine.Directory
import Treatise.CommandLine.Run
import Treatise.Config.Key
import Treatise.Config.Layers
import Treatise.Config.Settings
import Treatise.Config.Toml.Content
import Treatise.Config.Toml.Token
import Treatise.Config.Value
import Treatise.Corpus.Basic
import Treatise.Corpus.Check
import Treatise.Corpus.Hierarchy
import Treatise.Corpus.PathOrder
import Treatise.Corpus.Render
import Treatise.Corpus.Search
import Treatise.Corpus.Source
import Treatise.Corpus.Trie
import Treatise.Diagnostic
import Treatise.Document.Block
import Treatise.Document.Clause
import Treatise.Document.Entry
import Treatise.Document.Leaf
import Treatise.Document.Locations
import Treatise.Document.Printer
import Treatise.Document.Reading
import Treatise.Document.Shape
import Treatise.Expansion.Engine
import Treatise.Expansion.Inlining
import Treatise.Expansion.Rendering
import Treatise.Expansion.Template
import Treatise.Layout.Indentation
import Treatise.Layout.Lexeme
import Treatise.Layout.Token
import Treatise.Location
import Treatise.Main
import Treatise.Markup
import Treatise.Outline.Reading
import Treatise.Outline.Tree
import Treatise.Proofs.Corpus.Answers
import Treatise.Proofs.Corpus.Arrival
import Treatise.Proofs.Corpus.Checks
import Treatise.Proofs.Corpus.Completion
import Treatise.Proofs.Corpus.Constructors
import Treatise.Proofs.Corpus.Duplicates
import Treatise.Proofs.Corpus.Hierarchy
import Treatise.Proofs.Corpus.History
import Treatise.Proofs.Corpus.Indexing
import Treatise.Proofs.Corpus.InputOrder
import Treatise.Proofs.Corpus.Parents
import Treatise.Proofs.Corpus.PathOrder
import Treatise.Proofs.Corpus.PathTies
import Treatise.Proofs.Corpus.Queries
import Treatise.Proofs.Corpus.Reachability
import Treatise.Proofs.Corpus.Rendering
import Treatise.Proofs.Corpus.Search
import Treatise.Proofs.Corpus.Tally
import Treatise.Proofs.Corpus.Trie
import Treatise.Proofs.Corpus.Undefined
import Treatise.Proofs.Document.Concatenation
import Treatise.Proofs.Document.Depiction
import Treatise.Proofs.Document.Faithful
import Treatise.Proofs.Document.Generators
import Treatise.Proofs.Document.Html
import Treatise.Proofs.Document.Likeness
import Treatise.Proofs.Document.Moving
import Treatise.Proofs.Document.Occurrences
import Treatise.Proofs.Document.Placing
import Treatise.Proofs.Document.Printing
import Treatise.Proofs.Document.Relocation
import Treatise.Proofs.Document.RoundTrip
import Treatise.Proofs.Document.Sections
import Treatise.Proofs.Document.Shape
import Treatise.Proofs.Document.Typeset
import Treatise.Proofs.Enumeration
import Treatise.Proofs.Expansion.Aliases
import Treatise.Proofs.Expansion.Arity
import Treatise.Proofs.Expansion.Holes
import Treatise.Proofs.Expansion.Inlining
import Treatise.Proofs.Expansion.Locality
import Treatise.Proofs.Expansion.Marks
import Treatise.Proofs.Expansion.Orbit
import Treatise.Proofs.Expansion.Positions
import Treatise.Proofs.Layout.Account
import Treatise.Proofs.Layout.CommentLines
import Treatise.Proofs.Layout.Concatenation
import Treatise.Proofs.Layout.Forest
import Treatise.Proofs.Layout.LineBreaks
import Treatise.Proofs.Layout.LineEnds
import Treatise.Proofs.Layout.Lines
import Treatise.Proofs.Layout.Lookahead
import Treatise.Proofs.Layout.Lossless
import Treatise.Proofs.Layout.Nesting
import Treatise.Proofs.Layout.Order
import Treatise.Proofs.Layout.Padding
import Treatise.Proofs.Layout.Page
import Treatise.Proofs.Layout.RowEnds
import Treatise.Proofs.Layout.SameLine
import Treatise.Proofs.Layout.Scanning
import Treatise.Proofs.Layout.Stack
import Treatise.Proofs.Layout.TrailingBlanks
import Treatise.Proofs.Layout.Writing
import Treatise.Proofs.Location
import Treatise.Proofs.Outline.Code
import Treatise.Proofs.Outline.Concatenation
import Treatise.Proofs.Outline.Content
import Treatise.Proofs.Outline.Grammar
import Treatise.Proofs.Outline.Groups
import Treatise.Proofs.Outline.Items
import Treatise.Proofs.Outline.Recovery
import Treatise.Proofs.Outline.Relocation
import Treatise.Proofs.Outline.Sayable
import Treatise.Proofs.Outline.Taking
import Treatise.Proofs.Review
import Treatise.Proofs.Sorting
import Treatise.Proofs.Statement.Binding
import Treatise.Proofs.Statement.Bracketing
import Treatise.Proofs.Statement.Cutting
import Treatise.Proofs.Statement.Factors
import Treatise.Proofs.Statement.Grammar
import Treatise.Proofs.Statement.Legible
import Treatise.Proofs.Statement.Levels
import Treatise.Proofs.Statement.Lexing
import Treatise.Proofs.Statement.Likeness
import Treatise.Proofs.Statement.Places
import Treatise.Proofs.Statement.Printable
import Treatise.Proofs.Statement.Printing
import Treatise.Proofs.Statement.Recasting
import Treatise.Proofs.Statement.RoundTrip
import Treatise.Proofs.Statement.Substitution
import Treatise.Proofs.Statement.Unbalanced
import Treatise.Proofs.Statement.Usage
import Treatise.Proofs.Statement.WholeWords
import Treatise.Proofs.Statement.Written
import Treatise.Proofs.Table
import Treatise.Proofs.Text.Bytes
import Treatise.Proofs.Text.Run
import Treatise.Review
import Treatise.Statement.Bracketing
import Treatise.Statement.Expr
import Treatise.Statement.Lexer
import Treatise.Statement.Precedence
import Treatise.Statement.Printer
import Treatise.Statement.Reading
import Treatise.Statement.Substitution
import Treatise.Statement.Token
import Treatise.Statement.Usage
import Treatise.Table
import Treatise.Text.Alphanumeric
import Treatise.Text.Blank
import Treatise.Text.Bytes
import Treatise.Text.Decimal
import Treatise.Text.Lowercase
import Treatise.Text.Quoted
import Treatise.Text.Ranges
import Treatise.Text.Run
import Treatise.Text.Words

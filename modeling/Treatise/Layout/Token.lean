import Treatise.Layout.Lexeme
import Treatise.Location

/-!
# Tokens of the outline language

Tokens are what is left of the lexemes when the layout has been read: the content of the lines, and
three markers that stand for the layout. A block opens at the end of each line with content and
closes when the text returns to an enclosing level; a line break stands for a run of blank lines.
-/

namespace Treatise.Layout

/-- The kinds of token. -/
inductive TokenKind where
  | blockOpen
  | blockClose
  | lineBreak
  | name
  | operator
  | literal (literal : Literal)
  | mark (mark : Mark)
  deriving DecidableEq, Repr

/-- The written form of a punctuation mark. -/
def Mark.text : Mark → String
  | colon => ":"
  | colonEquals => ":="
  | comma => ","
  | leftParen => "("
  | rightParen => ")"
  | leftCurly => "\x7b"
  | rightCurly => "\x7d"
  | dotSpace => ". "
  | ellipsis => "..."
  | underscore => "_"
  | equals => "="

/-- What a literal is called. -/
def Literal.label : Literal → String
  | blockComment => "block comment"
  | string => "string"
  | statement => "statement"
  | id => "id"

/-- What a kind of token is called. -/
def TokenKind.label : TokenKind → String
  | blockOpen => "<Indent>"
  | blockClose => "<Unindent>"
  | lineBreak => "<Linebreak>"
  | name => "name"
  | operator => "operator"
  | .literal which => which.label
  | .mark which => which.text

/-- A token: its kind, its text and the place it begins at. -/
structure Token where
  kind : TokenKind
  text : String
  location : Location
  deriving DecidableEq, Repr

namespace Token

/-- The marker that opens a block. -/
def blockOpen (location : Location) : Token := ⟨.blockOpen, "<Indent>", location⟩

/-- The marker that closes a block. -/
def blockClose (location : Location) : Token := ⟨.blockClose, "<Unindent>", location⟩

/-- The marker of a run of blank lines. -/
def lineBreak (location : Location) : Token := ⟨.lineBreak, "-", location⟩

/-- Changes the place of a token. -/
def mapLocation (f : Location → Location) (token : Token) : Token :=
  { token with location := f token.location }

/-- Whether a token is one of the punctuation marks. -/
def isMark (token : Token) (mark : Mark) : Bool := token.kind == .mark mark

/-- Whether a token is one of the literals. -/
def isLiteral (token : Token) (literal : Literal) : Bool := token.kind == .literal literal

end Token

end Treatise.Layout

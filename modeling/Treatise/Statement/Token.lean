import Treatise.Location

/-!
# Tokens of the statement language

A statement is cut into words, operators, brackets and a few marks. Blanks separate tokens and have
no other meaning.
-/

namespace Treatise.Statement

/-- The ways in which one expression can be related to another. -/
inductive RelationKind where
  | isA
  | isIn
  | notIn
  | equal
  | notEqual
  | viewedAs
  deriving DecidableEq, Repr

/-- The written form of a relation. -/
def RelationKind.text : RelationKind → String
  | isA => "is"
  | isIn => "in"
  | notIn => "not in"
  | equal => "="
  | notEqual => "!="
  | viewedAs => "as"

/-- The kinds of bracket. -/
inductive Bracket where
  | paren
  | square
  | curly
  | squareColon
  deriving DecidableEq, Repr

def Bracket.opener : Bracket → String
  | paren => "("
  | square => "["
  | curly => "\x7b"
  | squareColon => "[:"

def Bracket.closer : Bracket → String
  | paren => ")"
  | square => "]"
  | curly => "\x7d"
  | squareColon => ":]"

/-- The kinds of token. -/
inductive TokenKind where
  | relation (kind : RelationKind)
  | assign
  | operator
  | backslash
  | dot
  | ellipsis
  | caret
  | underscore
  | colon
  | comma
  | opening (bracket : Bracket)
  | closing (bracket : Bracket)
  | text
  | name
  deriving DecidableEq, Repr

/-- What a kind of token is called. -/
def TokenKind.label : TokenKind → String
  | relation kind => kind.text
  | assign => ":="
  | operator => "operator"
  | backslash => "\\"
  | dot => "."
  | ellipsis => "..."
  | caret => "^"
  | underscore => "_"
  | colon => ":"
  | comma => ","
  | opening bracket => bracket.opener
  | closing bracket => bracket.closer
  | text => "text"
  | name => "name"

/-- A token: its kind, its text and the place it begins at. -/
structure Token where
  kind : TokenKind
  text : String
  location : Location
  deriving DecidableEq, Repr

/-- The problems that reading a statement meets, none of which stops the reading. -/
inductive Fault where
  | unrecognized (character : Char)
  | unclosedBracket
  | unexpectedCloser (text : String)
  | missingExpression
  | emptyParameter
  | missingOperator
  | unexpectedToken (text : String)
  | noNameAfterBackslash
  | noNameAfterDot
  | noNameAfterColon
  | noBracesAfterName
  deriving DecidableEq, Repr

/-- What is said about a fault. -/
def Fault.message : Fault → String
  | unrecognized character => "Unrecognized character " ++ character.toString
  | unclosedBracket => "Expected a closing bracket"
  | unexpectedCloser text => "Unexpected closing bracket " ++ text
  | missingExpression => "Expected an expression"
  | emptyParameter => "Unexpected empty parameter"
  | missingOperator => "Expected an operator"
  | unexpectedToken text => "Unexpected token " ++ text
  | noNameAfterBackslash => "Expected a name after \\"
  | noNameAfterDot => "Expected a name after ."
  | noNameAfterColon => "Expected a name after :"
  | noBracesAfterName => "Expected \x7b...\x7d after :name"

end Treatise.Statement

/-!
# Marked-up text

What the library prints is a list of pieces, some of which carry a tag that says what they are. The
same pieces can be put together as plain text, or as HTML where each tagged piece is a span.
-/

namespace Treatise.Markup

/-- What a piece of text is. -/
inductive Tag where
  | header
  | id
  | statement
  | text
  deriving DecidableEq, Repr

/-- The name of a tag in a class of HTML. -/
def Tag.name : Tag → String
  | header => "header"
  | id => "id"
  | statement => "statement"
  | text => "text"

/-- A piece of text. -/
inductive Piece where
  | plain (text : String)
  | tagged (tag : Tag) (text : String)
  deriving DecidableEq, Repr

/-- Writes a character so that it has no meaning in HTML. -/
def escapeChar (character : Char) : List Char :=
  if character = '&' then "&amp;".toList
  else if character = '<' then "&lt;".toList
  else if character = '>' then "&gt;".toList
  else [character]

/-- Writes a text so that no part of it has a meaning in HTML. -/
def escape (text : String) : String :=
  String.ofList (text.toList.flatMap escapeChar)

namespace Piece

def text : Piece → String
  | plain text | tagged _ text => text

/-- A piece as HTML. The class of a span is the name of its tag after a given word and a hyphen. -/
def html (classWord : String) : Piece → String
  | plain text => escape text
  | tagged tag text =>
    "<span class='" ++ classWord ++ "-" ++ tag.name ++ "'>" ++ escape text ++ "</span>"

end Piece

def plain (pieces : List Piece) : String :=
  String.join (pieces.map Piece.text)

def html (classWord : String) (pieces : List Piece) : String :=
  String.join (pieces.map (Piece.html classWord))

end Treatise.Markup

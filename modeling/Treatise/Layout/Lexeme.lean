import Treatise.Text.Bytes
import Treatise.Text.Run

/-!
# Lexemes of the outline language

A text is cut into lexemes, from left to right and without gaps: the texts of the lexemes put one
after the other are the text again. The longest pattern that fits wins; a character that fits no
pattern is a lexeme of its own.

Four kinds of literal hold free text: block comments, strings, statements and ids. A literal that
is never closed takes all that is left (an id, which never leaves its line, all that is left of the
line).
-/

namespace Treatise.Layout

open Text (byteLength runLength)

/-- The literals, which hold text that is not read at this level. -/
inductive Literal where
  | blockComment
  | string
  | statement
  | id
  deriving DecidableEq, Repr

def Literal.closer : Literal → String
  | blockComment => "::"
  | string => "\""
  | statement => "'"
  | id => "]"

/-- The punctuation marks. -/
inductive Mark where
  | colon
  | colonEquals
  | comma
  | leftParen
  | rightParen
  | leftCurly
  | rightCurly
  | dotSpace
  | ellipsis
  | underscore
  | equals
  deriving DecidableEq, Repr

/-- What can be wrong with the suffix of a name. -/
inductive NameFlaw where
  | noDigits
  | noName
  deriving DecidableEq, Repr

/-- The kinds of lexeme. -/
inductive Lexeme.Kind where
  | newline
  | indent
  | space
  | lineComment
  | literal (literal : Literal) (closed : Bool)
  | name (flaw : Option NameFlaw)
  | placeholder
  | operator
  | mark (mark : Mark)
  | unrecognized
  deriving DecidableEq, Repr

/-- Layout lexemes shape the lines and carry no content. -/
def Lexeme.Kind.isLayout : Lexeme.Kind → Bool
  | newline | indent | space | lineComment => true
  | _ => false

/-- A piece of text and what it is. -/
structure Lexeme where
  kind : Lexeme.Kind
  text : List Char
  deriving DecidableEq, Repr

namespace Lexeme

/-- The characters that operators are made of. -/
def isOperatorCharacter (character : Char) : Bool :=
  "~!@%^&*-+<>\\/=".toList.contains character

/-- How far a quotation reaches, its closing quote included, and whether it is closed. -/
def quotationExtent (quote : Char) (text : List Char) : Nat × Bool :=
  match text.findIdx? (· == quote) with
  | some index => (index + 1, true)
  | none => (text.length, false)

/-- An extent that is longer by some characters. -/
def extended (count : Nat) (extent : Nat × Bool) : Nat × Bool :=
  (extent.1 + count, extent.2)

/-- How far an id reaches with `depth` brackets open inside it. Brackets nest, and an id ends with
its line even when it is not closed. -/
def idExtent (depth : Nat) : List Char → Nat × Bool
  | [] => (0, false)
  | '\n' :: _ => (0, false)
  | '[' :: rest => extended 1 (idExtent (depth + 1) rest)
  | ']' :: rest =>
    match depth with
    | 0 => (1, true)
    | outer + 1 => extended 1 (idExtent outer rest)
  | _ :: rest => extended 1 (idExtent depth rest)

/-- How far a block comment reaches. A double colon in braces does not close the comment, and the
newline right after the closing double colon belongs to the comment. -/
def blockCommentExtent : List Char → Nat × Bool
  | '{' :: ':' :: ':' :: '}' :: rest => extended 4 (blockCommentExtent rest)
  | ':' :: ':' :: '\n' :: _ => (3, true)
  | ':' :: ':' :: _ => (2, true)
  | _ :: rest => extended 1 (blockCommentExtent rest)
  | [] => (0, false)

/-- The suffix of a name, by its length and its flaw: a question mark, a hash sign with digits, or
an ellipsis that may be tagged by a hash sign and a name with an ellipsis of its own. -/
def nameSuffix : List Char → Nat × Option NameFlaw
  | '?' :: _ => (1, none)
  | '#' :: rest =>
    match runLength Char.isDigit rest with
    | 0 => (1, some .noDigits)
    | digits => (digits + 1, none)
  | '.' :: '.' :: '.' :: '#' :: rest =>
    let length := runLength Char.isAlphanum rest
    if 0 < length ∧ (rest.drop length).take 3 = ['.', '.', '.'] then (length + 7, none)
    else (4, some .noName)
  | '.' :: '.' :: '.' :: _ => (3, none)
  | _ => (0, none)

/-- The suffix of an operator, by its length: an underscore and a name. -/
def operatorSuffix : List Char → Nat
  | '_' :: rest =>
    match runLength Char.isAlphanum rest with
    | 0 => 0
    | length => length + 1
  | _ => 0

/-- An operator by how many characters follow its first one. A lone equals sign is a mark. -/
def operatorExtent (first : Char) (rest : List Char) : Kind × Nat :=
  let length := runLength isOperatorCharacter rest
  if first = '=' ∧ length = 0 then (.mark .equals, 0)
  else (.operator, length + operatorSuffix (rest.drop length))

/-- A literal by its kind and how far it reaches. -/
def literalExtent (literal : Literal) (extent : Nat × Bool) : Kind × Nat :=
  (.literal literal extent.2, extent.1)

/-- The lexeme that begins with the character `first` when `rest` follows: its kind, and how many
characters of `rest` belong to it. -/
def classify (first : Char) (rest : List Char) : Kind × Nat :=
  match first, rest with
  | '\n', _ => (.newline, 0)
  | ' ', ' ' :: _ => (.indent, 1)
  | ' ', _ => (.space, 0)
  | '\t', _ | '\r', _ | '\x0c', _ => (.space, 0)
  | '-', '-' :: comment => (.lineComment, runLength (· != '\n') comment + 1)
  | ':', ':' :: comment =>
    let extent := blockCommentExtent comment
    (.literal .blockComment extent.2, extent.1 + 1)
  | ':', '=' :: _ => (.mark .colonEquals, 1)
  | ':', _ => (.mark .colon, 0)
  | '"', _ => literalExtent .string (quotationExtent '"' rest)
  | '\'', _ => literalExtent .statement (quotationExtent '\'' rest)
  | '[', _ => literalExtent .id (idExtent 0 rest)
  | '?', _ => (.placeholder, 0)
  | ',', _ => (.mark .comma, 0)
  | '(', _ => (.mark .leftParen, 0)
  | ')', _ => (.mark .rightParen, 0)
  | '{', _ => (.mark .leftCurly, 0)
  | '}', _ => (.mark .rightCurly, 0)
  | '.', ' ' :: _ => (.mark .dotSpace, 1)
  | '.', '.' :: '.' :: _ => (.mark .ellipsis, 2)
  | '_', _ => (.mark .underscore, 0)
  | _, _ =>
    if first.isAlphanum then
      let length := runLength Char.isAlphanum rest
      let suffix := nameSuffix (rest.drop length)
      (.name suffix.2, length + suffix.1)
    else if isOperatorCharacter first then operatorExtent first rest
    else (.unrecognized, 0)

/-- Cuts a text into lexemes. -/
def scan : List Char → List Lexeme
  | [] => []
  | first :: rest =>
    let found := classify first rest
    ⟨found.1, first :: rest.take found.2⟩ :: scan (rest.drop found.2)
termination_by text => text.length
decreasing_by simp only [List.length_drop, List.length_cons]; omega

/-- Pairs each lexeme with the byte offsets of its beginning and of its end. -/
def withOffsets (offset : Nat) : List Lexeme → List (Lexeme × Nat × Nat)
  | [] => []
  | lexeme :: rest =>
    let next := offset + byteLength lexeme.text
    (lexeme, offset, next) :: withOffsets next rest

end Lexeme

end Treatise.Layout

import Treatise.Diagnostic
import Treatise.Review
import Treatise.Statement.Token
import Treatise.Text.Run

/-!
# From the text of a statement to its tokens

A statement is cut into pieces, from left to right and without gaps: tokens, blanks, and pieces
that are not recognized. The longest pattern that fits wins, so that a name which only begins with
a relation word stays a name.

The word `not` with blanks after it is taken for the beginning of `not in`: where `in` does not
follow, the word and the blanks are not recognized. A double quote that is never closed takes the
rest of the statement.
-/

namespace Treatise.Statement

open Text (runLength)

/-- What a piece of a statement is. -/
inductive Piece.Kind where
  | token (kind : TokenKind)
  | blank
  | unrecognized
  deriving DecidableEq, Repr

namespace Piece

/-- The characters that separate tokens. -/
def isBlank (character : Char) : Bool :=
  " \t\r\n\x0c".toList.contains character

/-- The characters that operators are made of. -/
def isOperatorCharacter (character : Char) : Bool :=
  "~!@%&*-+<>/|=".toList.contains character

/-- The kind of a run of operator characters. -/
def operatorKind (run : List Char) : TokenKind :=
  if run = ['='] then .relation .equal
  else if run = ['!', '='] then .relation .notEqual
  else .operator

/-- The kind of a run of letters and digits. -/
def wordKind (word : List Char) : TokenKind :=
  if word = "is".toList then .relation .isA
  else if word = "in".toList then .relation .isIn
  else if word = "as".toList then .relation .viewedAs
  else .name

/-- The piece that begins with a word, by its kind and by how many characters follow the first one.
`after` is what follows the word. -/
def wordExtent (word after : List Char) : Kind × Nat :=
  let blanks := runLength isBlank after
  if word = "not".toList ∧ 0 < blanks then
    if (after.drop blanks).take 2 = "in".toList then
      (.token (.relation .notIn), word.length - 1 + blanks + 2)
    else (.unrecognized, word.length - 1 + blanks)
  else (.token (wordKind word), word.length - 1)

/-- The piece that begins with the character `first` when `rest` follows: its kind, and how many
characters of `rest` belong to it. -/
def classify (first : Char) (rest : List Char) : Kind × Nat :=
  match first, rest with
  | ':', '=' :: _ => (.token .assign, 1)
  | ':', ']' :: _ => (.token (.closing .squareColon), 1)
  | ':', _ => (.token .colon, 0)
  | '[', ':' :: _ => (.token (.opening .squareColon), 1)
  | '[', _ => (.token (.opening .square), 0)
  | ']', _ => (.token (.closing .square), 0)
  | '(', _ => (.token (.opening .paren), 0)
  | ')', _ => (.token (.closing .paren), 0)
  | '{', _ => (.token (.opening .curly), 0)
  | '}', _ => (.token (.closing .curly), 0)
  | '.', '.' :: '.' :: _ => (.token .ellipsis, 2)
  | '.', _ => (.token .dot, 0)
  | '\\', _ => (.token .backslash, 0)
  | '^', _ => (.token .caret, 0)
  | '_', _ => (.token .underscore, 0)
  | ',', _ => (.token .comma, 0)
  | '"', _ =>
    match rest.findIdx? (· == '"') with
    | some index => (.token .text, index + 1)
    | none => (.unrecognized, rest.length)
  | _, _ =>
    if isBlank first then (.blank, 0)
    else if first.isAlphanum then
      let length := runLength Char.isAlphanum rest
      wordExtent (first :: rest.take length) (rest.drop length)
    else if isOperatorCharacter first then
      let length := runLength isOperatorCharacter rest
      (.token (operatorKind (first :: rest.take length)), length)
    else (.unrecognized, 0)

end Piece

/-- Reads the text that begins at `location` into tokens. -/
def tokensFrom (location : Location) : List Char → Review Fault (List Token)
  | [] => pure []
  | first :: rest =>
    let found := Piece.classify first rest
    let text := first :: rest.take found.2
    let remaining := tokensFrom (location.advance text) (rest.drop found.2)
    match found.1 with
    | .token kind =>
      ⟨⟨kind, String.ofList text, location⟩ :: remaining.value, remaining.problems⟩
    | .blank => remaining
    | .unrecognized => ⟨remaining.value, ⟨location, .unrecognized first⟩ :: remaining.problems⟩
termination_by text => text.length
decreasing_by simp only [List.length_drop, List.length_cons]; omega

/-- Reads the text of a statement into tokens. -/
def tokens (text : String) : Review Fault (List Token) :=
  tokensFrom .start text.toList

/-- The diagnostic of a fault found at a place of a statement. -/
def Fault.diagnostic (fault : Located Fault) : Diagnostic :=
  Diagnostic.ofLocated .expression Fault.message fault

end Treatise.Statement

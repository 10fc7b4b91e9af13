import Treatise.Text.Decimal

/-!
# Tokens of configuration files

Texts stand between quotes and can have escapes in them, or between apostrophes, and then they have
none; with three quotes or apostrophes on each side they may have more than one line. What is not
quoted is cut into words and single marks. A number sign begins a comment, and the ends of lines are
tokens.
-/

namespace Treatise.Config.Toml

/-! ## Characters -/

/-- Whether a character can be part of a word: a key without quotes, a number or a truth value. -/
def isWordChar (character : Char) : Bool :=
  character.isAlphanum || character = '_' || character = '-' || character = '+'

/-- Whether a character is a space or a tab. -/
def isGap (character : Char) : Bool :=
  character = ' ' || character = '\t'

/-- Whether a character can be part of a text or a comment: control characters cannot, except a
tab. -/
def isText (character : Char) : Bool :=
  character = '\t' || ' ' ≤ character && character ≠ '\x7f'

/-- The character that an escape of one letter stands for. -/
def escaped? : Char → Option Char
  | 'b' => some '\x08'
  | 't' => some '\t'
  | 'n' => some '\n'
  | 'f' => some '\x0c'
  | 'r' => some '\r'
  | '"' => some '"'
  | '\\' => some '\\'
  | _ => none

/-- The value of a hexadecimal digit. -/
def hexValue? (digit : Char) : Option Nat :=
  if digit.isDigit then some (Text.digitValue digit)
  else if 'a' ≤ digit && digit ≤ 'f' then some (digit.toNat - 'a'.toNat + 10)
  else if 'A' ≤ digit && digit ≤ 'F' then some (digit.toNat - 'A'.toNat + 10)
  else none

/-- The character of a code point. -/
def charOf? (code : Nat) : Option Char :=
  if code.isValidChar then some (Char.ofNat code) else none

/-! ## Tokens -/

/-- A token of a configuration file. -/
inductive Token where
  | word (text : String)
  | quoted (text : String)
  /-- A text between three quotes on each side, which may have more than one line. -/
  | block (text : String)
  | dot
  | equals
  | leftBracket
  | rightBracket
  | newline
  deriving DecidableEq, Repr

/-- The token of a character that is a token by itself. -/
def markOf? : Char → Option Token
  | '.' => some .dot
  | '=' => some .equals
  | '[' => some .leftBracket
  | ']' => some .rightBracket
  | _ => none

/-- Where a text of several lines is being read. -/
inductive Place where
  /-- At its beginning, where the end of a line does not count. -/
  | opening
  /-- After an end of a line behind a backslash, where spaces and ends of lines do not count. -/
  | joined
  | inside
  deriving DecidableEq, Repr

/-- The characters of a text, in reverse, with an end of a line after them if it counts. -/
def Place.breakLine (place : Place) (run : List Char) : List Char :=
  if place = .inside then '\n' :: run else run

/-- The place after an end of a line. -/
def Place.afterBreak (place : Place) : Place :=
  if place = .joined then .joined else .inside

/-- The text of characters in reverse. -/
def textOf (run : List Char) : String :=
  String.ofList run.reverse

mutual

def tokens : List Char → Option (List Token)
  | [] => some []
  | '\n' :: rest => (tokens rest).map (Token.newline :: ·)
  | '\r' :: '\n' :: rest => (tokens rest).map (Token.newline :: ·)
  | '#' :: rest => comment rest
  | '"' :: '"' :: '"' :: rest => block [] .opening rest
  | '"' :: rest => basic [] rest
  | '\'' :: '\'' :: '\'' :: rest => rawBlock [] .opening rest
  | '\'' :: rest => raw [] rest
  | character :: rest =>
    if isGap character then tokens rest
    else if isWordChar character then word [character] rest
    else do return (← markOf? character) :: (← tokens rest)
termination_by structural text => text

/-- Reads tokens after a part of a word, whose characters `run` holds in reverse. -/
def word (run : List Char) : List Char → Option (List Token)
  | [] => some [.word (textOf run)]
  | '\n' :: rest => (tokens rest).map fun tokens => .word (textOf run) :: .newline :: tokens
  | '\r' :: '\n' :: rest => (tokens rest).map fun tokens => .word (textOf run) :: .newline :: tokens
  | '#' :: rest => (comment rest).map (Token.word (textOf run) :: ·)
  | character :: rest =>
    if isWordChar character then word (character :: run) rest
    else if isGap character then (tokens rest).map (Token.word (textOf run) :: ·)
    else do return .word (textOf run) :: (← markOf? character) :: (← tokens rest)
termination_by structural text => text

/-- Reads tokens after a part of a comment. -/
def comment : List Char → Option (List Token)
  | [] => some []
  | '\n' :: rest => (tokens rest).map (Token.newline :: ·)
  | '\r' :: '\n' :: rest => (tokens rest).map (Token.newline :: ·)
  | character :: rest => if isText character then comment rest else none
termination_by structural text => text

/-- Reads tokens after a part of a text. -/
def basic (run : List Char) : List Char → Option (List Token)
  | '"' :: rest => (tokens rest).map (Token.quoted (textOf run) :: ·)
  | '\\' :: 'u' :: rest => code run false 4 0 rest
  | '\\' :: 'U' :: rest => code run false 8 0 rest
  | '\\' :: character :: rest => do basic ((← escaped? character) :: run) rest
  | character :: rest => if isText character then basic (character :: run) rest else none
  | [] => none
termination_by structural text => text

/-- Reads tokens after a part of the code of a character: `left` digits are missing. -/
def code (run : List Char) (inBlock : Bool) (left value : Nat) : List Char → Option (List Token)
  | [] => none
  | digit :: rest => do
    let value := 16 * value + (← hexValue? digit)
    if left ≤ 1 then
      let run := (← charOf? value) :: run
      if inBlock then block run .inside rest else basic run rest
    else code run inBlock (left - 1) value rest
termination_by structural text => text

/-- Reads tokens after a part of a text without escapes. -/
def raw (run : List Char) : List Char → Option (List Token)
  | '\'' :: rest => (tokens rest).map (Token.quoted (textOf run) :: ·)
  | character :: rest => if isText character then raw (character :: run) rest else none
  | [] => none
termination_by structural text => text

/-- Reads tokens after a part of a text of several lines. One or two quotes can stand before the
three that end it. -/
def block (run : List Char) (place : Place) : List Char → Option (List Token)
  | '"' :: '"' :: '"' :: '"' :: '"' :: rest =>
    (tokens rest).map (Token.block (textOf ('"' :: '"' :: run)) :: ·)
  | '"' :: '"' :: '"' :: '"' :: rest => (tokens rest).map (Token.block (textOf ('"' :: run)) :: ·)
  | '"' :: '"' :: '"' :: rest => (tokens rest).map (Token.block (textOf run) :: ·)
  | '\n' :: rest => block (place.breakLine run) place.afterBreak rest
  | '\r' :: '\n' :: rest => block (place.breakLine run) place.afterBreak rest
  | '\\' :: 'u' :: rest => code run true 4 0 rest
  | '\\' :: 'U' :: rest => code run true 8 0 rest
  | '\\' :: '\n' :: rest => block run .joined rest
  | '\\' :: '\r' :: '\n' :: rest => block run .joined rest
  | '\\' :: character :: rest =>
    if isGap character then joint run rest
    else do block ((← escaped? character) :: run) .inside rest
  | character :: rest =>
    if place = .joined && isGap character then block run .joined rest
    else if isText character then block (character :: run) .inside rest
    else none
  | [] => none
termination_by structural text => text

/-- Reads tokens after a backslash and a space in a text of several lines, where the end of the line
has to follow. -/
def joint (run : List Char) : List Char → Option (List Token)
  | '\n' :: rest => block run .joined rest
  | '\r' :: '\n' :: rest => block run .joined rest
  | character :: rest => if isGap character then joint run rest else none
  | [] => none
termination_by structural text => text

/-- Reads tokens after a part of a text of several lines without escapes. -/
def rawBlock (run : List Char) (place : Place) : List Char → Option (List Token)
  | '\'' :: '\'' :: '\'' :: '\'' :: '\'' :: rest =>
    (tokens rest).map (Token.block (textOf ('\'' :: '\'' :: run)) :: ·)
  | '\'' :: '\'' :: '\'' :: '\'' :: rest =>
    (tokens rest).map (Token.block (textOf ('\'' :: run)) :: ·)
  | '\'' :: '\'' :: '\'' :: rest => (tokens rest).map (Token.block (textOf run) :: ·)
  | '\n' :: rest => rawBlock (place.breakLine run) .inside rest
  | '\r' :: '\n' :: rest => rawBlock (place.breakLine run) .inside rest
  | character :: rest => if isText character then rawBlock (character :: run) .inside rest else none
  | [] => none
termination_by structural text => text

end

end Treatise.Config.Toml

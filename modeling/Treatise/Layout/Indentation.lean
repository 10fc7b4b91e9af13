import Treatise.Layout.Token
import Treatise.Diagnostic

/-!
# From lexemes to tokens

The layout of a text is read line by line. A line with content stands at a level: the number of
two-space indents before its first content, and one more when that content is a dot with a space,
since what follows the dot sits one level deeper than the dot.

Every line with content opens a block where it ends. Which blocks the opening closes is known only
at the next line with content, so the newline is kept pending until then: a deeper line leaves the
block open, any other line closes it together with the blocks of all lines that are not above it. A
blank line counts as a line at level zero and leaves one line break. At the end of the text all
blocks are closed.

Lines that hold only a line comment are passed over. A block comment owns the newline right after
it, so the line that follows begins afresh.
-/

namespace Treatise.Layout

/-- The problems that reading the layout meets, none of which stops the reading. -/
inductive Fault where
  | unterminated (literal : Literal)
  | unrecognized (character : Char)
  | malformedName (flaw : NameFlaw)
  deriving DecidableEq, Repr

/-- What is said about a flawed name. -/
def NameFlaw.message : NameFlaw → String
  | noDigits => "Expected digits after '#'"
  | noName => "Expected a name followed by '...' after '#'"

/-- What is said about a fault. -/
def Fault.message : Fault → String
  | unterminated literal => "Expected a terminating " ++ literal.closer
  | unrecognized character => "Unrecognized character " ++ character.toString
  | malformedName flaw => flaw.message

/-- The diagnostic of a fault found at a place. -/
def Fault.diagnostic (fault : Located Fault) : Diagnostic :=
  Diagnostic.ofLocated .lex Fault.message fault

/-- The fault of a lexeme, if it has one. -/
def Lexeme.fault? (lexeme : Lexeme) : Option Fault :=
  match lexeme.kind with
  | .literal literal false => some (.unterminated literal)
  | .name (some flaw) => some (.malformedName flaw)
  | .unrecognized => some (.unrecognized (lexeme.text.headD '\ufffd'))
  | _ => none

/-- The kind of token that a lexeme with content becomes. -/
def Lexeme.Kind.token? : Lexeme.Kind → Option TokenKind
  | .literal which _ => some (.literal which)
  | .name _ | .placeholder => some .name
  | .operator => some .operator
  | .mark which => some (.mark which)
  | .newline | .indent | .space | .lineComment | .unrecognized => none

/-- Whether a lexeme is a block comment that owns the newline after it. -/
def Lexeme.ownsNewline (lexeme : Lexeme) : Bool :=
  match lexeme.kind with
  | .literal .blockComment _ => lexeme.text.getLast? == some '\n'
  | _ => false

/-- The text of the token that a lexeme becomes. The newline that a block comment owns is no part of
it, and a literal that is not closed gets its closer. -/
def Lexeme.tokenText (lexeme : Lexeme) : String :=
  let body := if lexeme.ownsNewline then lexeme.text.dropLast else lexeme.text
  match lexeme.kind with
  | .literal literal false => String.ofList body ++ literal.closer
  | _ => String.ofList body

/-- What a line holds as far as it has been read. -/
inductive LineContent where
  | nothing
  | comment
  | content
  deriving DecidableEq, Repr

/-- What is known of the layout while a text is being read. -/
structure Reader where
  /-- The levels of the lines that enclose the current one, the innermost first. -/
  levels : List Nat
  /-- How many blocks are open. -/
  openBlocks : Nat
  /-- The newline of the last line with content, until the next line is known. -/
  pending : Option Location
  /-- The two-space indents at the beginning of the current line. -/
  indent : Nat
  /-- What the current line holds so far. -/
  line : LineContent
  /-- Whether a blank line would leave a line break: there is a token, and it is no line break. -/
  breakable : Bool
  deriving DecidableEq, Repr

namespace Reader

/-- The beginning of a text. -/
def initial : Reader := ⟨[0], 0, none, 0, .nothing, false⟩

/-- The same layout at the beginning of a line. -/
def freshLine (reader : Reader) : Reader :=
  { reader with indent := 0, line := .nothing }

/-- Leaves the enclosing levels that are not above `level`, as long as blocks are open. Returns the
levels and the number of open blocks that are left. -/
def leave (level : Nat) : List Nat → Nat → List Nat × Nat
  | top :: outer, openBlocks + 1 =>
    if level ≤ top then leave level outer openBlocks else (top :: outer, openBlocks + 1)
  | levels, openBlocks => (levels, openBlocks)

/-- Opens the block of the line that ended at `location`, now that the next line is known to stand
at `level`, and closes the blocks that this line does not belong to. -/
def openBlock (reader : Reader) (location : Location) (level : Nat) : List Token × Reader :=
  let (levels, openBlocks) := leave level reader.levels (reader.openBlocks + 1)
  let closed := reader.openBlocks + 1 - openBlocks
  let outer := if levels.isEmpty then [0] else levels
  (Token.blockOpen location :: List.replicate closed (Token.blockClose location),
    { reader with levels := level :: outer, openBlocks, breakable := true })

/-- Settles the pending newline, if there is one, by a line at `level`. -/
def settle (reader : Reader) (level : Nat) : List Token × Reader :=
  match reader.pending with
  | some location => { reader with pending := none }.openBlock location level
  | none => ([], reader)

/-- A newline at `location`. -/
def newline (reader : Reader) (location : Location) : List Token × Reader :=
  match reader.line with
  | .content => ([], { reader with pending := some location }.freshLine)
  | .comment => ([], reader.freshLine)
  | .nothing =>
    let (markers, settled) := reader.settle 0
    let break? := if settled.breakable then [Token.lineBreak location] else []
    (markers ++ break?, { settled with breakable := false }.freshLine)

/-- A lexeme with content at `location`, which becomes a token of the kind `kind`. -/
def content (reader : Reader) (location : Location) (lexeme : Lexeme) (kind : TokenKind) :
    List Token × Reader :=
  let (markers, settled) :=
    if reader.line = .content then ([], reader)
    else
      let level := if kind = .mark .dotSpace then reader.indent + 1 else reader.indent
      reader.settle level
  let after := { settled with line := .content, breakable := true }
  (markers ++ [⟨kind, lexeme.tokenText, location⟩],
    if lexeme.ownsNewline then after.freshLine else after)

/-- One lexeme at `location`: the tokens it yields, and what is known afterwards. -/
def step (reader : Reader) (location : Location) (lexeme : Lexeme) : List Token × Reader :=
  match lexeme.kind with
  | .newline => reader.newline location
  | .indent =>
    if reader.line = .content then ([], reader)
    else ([], { reader with indent := reader.indent + 1 })
  | .lineComment =>
    if reader.line = .content then ([], reader) else ([], { reader with line := .comment })
  | .space | .unrecognized => ([], reader)
  | kind =>
    match kind.token? with
    | some token => reader.content location lexeme token
    | none => ([], reader)

/-- The end of the text at `location`: every open block is closed. -/
def finish (reader : Reader) (location : Location) : List Token :=
  let (markers, settled) := reader.settle 0
  markers ++ List.replicate settled.openBlocks (Token.blockClose location)

/-- Reads the lexemes that begin at `location`. -/
def run (reader : Reader) (location : Location) : List Lexeme → List Token
  | [] => reader.finish location
  | lexeme :: rest =>
    let (tokens, after) := reader.step location lexeme
    tokens ++ after.run (location.advance lexeme.text) rest

end Reader

/-- The faults of the lexemes that begin at `location`, in the order of the text. -/
def faultsFrom (location : Location) : List Lexeme → List (Located Fault)
  | [] => []
  | lexeme :: rest =>
    let found := match lexeme.fault? with
      | some fault => [⟨location, fault⟩]
      | none => []
    found ++ faultsFrom (location.advance lexeme.text) rest

/-- The text with a newline at its end. -/
def withFinalNewline (text : List Char) : List Char :=
  if text.getLast? = some '\n' then text else text ++ ['\n']

/-- The tokens of a text, and its faults in the order of the text. -/
structure Reading where
  tokens : List Token
  faults : List (Located Fault)
  deriving Repr

/-- Reads a text into tokens. Faults never stop the reading. -/
def read (text : String) : Reading :=
  let lexemes := Lexeme.scan (withFinalNewline text.toList)
  ⟨Reader.initial.run .start lexemes, faultsFrom .start lexemes⟩

def Reading.diagnostics (reading : Reading) : List Diagnostic :=
  reading.faults.map Fault.diagnostic

end Treatise.Layout

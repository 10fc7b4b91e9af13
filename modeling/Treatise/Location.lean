import Treatise.Text.Bytes

/-!
# Locations

A location is a place in a text, given by a row and a column that both count from zero. Columns
count characters, so that a location is what a reader sees whatever the encoding. Both are kept in
32 bits, so that they begin to be negative when a text is 2 ^ 31 rows long, or one of its rows is
that many characters long.

Locations of an embedded text (the inside of a quotation, say) are moved into the coordinates of
the text that holds it by `Location.within`. A byte offset is turned into a location by
`Location.ofOffset`, which looks it up among the offsets at which the lines begin.
-/

namespace Treatise

/-- A place in a text: a line and a character of the line, both counted from zero in 32 bits. -/
structure Location where
  line : Int32
  character : Int32
  deriving DecidableEq, Repr

/-- A whole number is cut to 32 bits where a line or a character is expected. -/
instance intCastInt32 : IntCast Int32 := ⟨Int32.ofInt⟩

namespace Location

open Text (byteLength slice?)

/-- The row of a place: its line as a whole number. -/
def row (place : Location) : Int := place.line.toInt

/-- The column of a place: its character as a whole number. -/
def column (place : Location) : Int := place.character.toInt

/-- The place of the first character of a text. -/
def start : Location := ⟨0, 0⟩

/-- The place that stands for no place at all. -/
def nowhere : Location := ⟨-1, -1⟩

instance : Inhabited Location := ⟨start⟩

/-- Earlier rows come first, and within a row earlier columns. -/
def le (first second : Location) : Bool :=
  first.row < second.row || (first.row == second.row && first.column ≤ second.column)

/-- The written form counts from zero: row, colon, column. -/
def render (place : Location) : String :=
  toString place.row ++ ":" ++ toString place.column

/-- The place in the enclosing text of a place inside a text that begins at `origin`. Only the first
row of the embedded text shares its row with other text, so only there the column moves. The result
never goes negative. -/
def within (place origin : Location) : Location :=
  let character :=
    if place.line = 0 then place.character + origin.character else place.character
  ⟨max 0 (place.line + origin.line), max 0 character⟩

/-- The place one column further on the same row. -/
def nextColumn (place : Location) : Location :=
  ⟨place.line, place.character + 1⟩

/-- The place right after a character that stands at `place`. -/
def step (place : Location) (character : Char) : Location :=
  if character = '\n' then ⟨place.line + 1, 0⟩ else place.nextColumn

/-- The place right after a text that begins at `place`. -/
def advance (place : Location) (text : List Char) : Location :=
  text.foldl step place

/-- The byte offsets at which the lines after the first one begin, in rising order. `offset` bytes
stand before the text. -/
def lineStartsFrom (offset : Nat) : List Char → List Nat
  | [] => []
  | character :: rest =>
    let next := offset + character.utf8Size
    if character = '\n' then next :: lineStartsFrom next rest else lineStartsFrom next rest

/-- The byte offsets at which the lines of a text begin, in rising order. -/
def lineStarts (text : List Char) : Array Nat :=
  (0 :: lineStartsFrom 0 text).toArray

/-- The last of the lines from `low` up to `high` that begins at a byte offset or before it, if the
line `low` does. The range is halved until one line is left. -/
def lineAt (starts : Array Nat) (offset low high : Nat) : Nat :=
  if low + 1 < high then
    let middle := (low + high) / 2
    if starts.getD middle 0 ≤ offset then lineAt starts offset middle high
    else lineAt starts offset low middle
  else low
termination_by high - low
decreasing_by all_goals omega

/-- The place of a byte offset in a text; offsets past the end stand for the end. An offset inside a
character counts bytes from the beginning of the line. -/
def ofOffset (text : String) (offset : Nat) : Location :=
  let inside := min offset (byteLength text.toList)
  let starts := lineStarts text.toList
  let line := lineAt starts inside 0 starts.size
  let start := starts.getD line 0
  match slice? text.toList start inside with
  | some before => ⟨.ofNat line, .ofNat before.length⟩
  | none => ⟨.ofNat line, .ofNat (inside - start)⟩

/-- The place right after the last character of a text. -/
def endOf (text : String) : Location :=
  start.advance text.toList

/-- A text has one line more than it has newlines. -/
def lineCount (text : String) : Nat :=
  text.toList.count '\n' + 1

end Location

/-- A value together with the place it was found at. -/
structure Located (α : Type) where
  location : Location
  value : α
  deriving DecidableEq, Repr

namespace Located

variable {α β : Type}

/-- Changes the value and keeps the place. -/
def map (f : α → β) (found : Located α) : Located β :=
  ⟨found.location, f found.value⟩

end Located

end Treatise

import Treatise.Config.Toml.Token
import Treatise.Config.Value

/-!
# Configuration files

A configuration file assigns values to keys, a line for each. A line with the name of a table in
square brackets puts the keys below it into that table, and dots in a key lead into tables inside
it. The values are truth values, integers and texts.

This is the part of TOML that the settings need. A text with anything else in it is refused, and so
is one that gives a key two values or defines a table twice. A table is defined by its own line or
by the keys with dots that lead into it, but not by both.
-/

namespace Treatise.Config.Toml

/-- The names that lead to a table or a value, the outermost first. -/
abbrev Path := List String

/-! ## Lines -/

/-- What a line says. -/
inductive Line where
  | blank
  | table (path : Path)
  | entry (path : Path) (value : Scalar)
  deriving DecidableEq, Repr

/-- A key without quotes has no plus sign in it. -/
def keyOf? : Token → Option String
  | .word text => if text.toList.contains '+' then none else some text
  | .quoted text => some text
  | _ => none

/-- Reads a key with dots in it. -/
def path? : List Token → Option Path
  | [token] => (keyOf? token).map ([·])
  | token :: .dot :: rest => do return (← keyOf? token) :: (← path? rest)
  | _ => none

/-- Reads digits to a base. There can be an underscore between two digits. -/
def digits? (base value : Nat) : List Char → Option Nat
  | [] => none
  | digit :: rest => do
    let next ← hexValue? digit
    guard (next < base)
    let value := base * value + next
    match rest with
    | [] => return value
    | '_' :: rest => digits? base value rest
    | rest => digits? base value rest

/-- Reads a decimal number, which begins with zero only if it is just that digit. -/
def decimal? (digits : List Char) : Option Nat := do
  guard (digits.length = 1 || digits.head? ≠ some '0')
  digits? 10 0 digits

/-- Reads an integer of 64 bits: a decimal number, which may have a sign, or a number to another
base, which may not. -/
def integer? (text : List Char) : Option Int := do
  let value : Int ← match text with
    | '0' :: 'x' :: digits => (digits? 16 0 digits).map Int.ofNat
    | '0' :: 'o' :: digits => (digits? 8 0 digits).map Int.ofNat
    | '0' :: 'b' :: digits => (digits? 2 0 digits).map Int.ofNat
    | '-' :: digits => (decimal? digits).map fun value => -(value : Int)
    | '+' :: digits => (decimal? digits).map Int.ofNat
    | digits => (decimal? digits).map Int.ofNat
  if Int64.minValue.toInt ≤ value && value ≤ Int64.maxValue.toInt then some value else none

def scalar? : Token → Option Scalar
  | .quoted text => some (.text text)
  | .block text => some (.text text)
  | .word "true" => some (.bool true)
  | .word "false" => some (.bool false)
  | .word text => (integer? text.toList).map .int
  | _ => none

/-- Reads the tokens of a line. -/
def line? (tokens : List Token) : Option Line :=
  match tokens with
  | [] => some .blank
  | .leftBracket :: rest =>
    match rest.getLast? with
    | some .rightBracket => (path? rest.dropLast).map .table
    | _ => none
  | tokens =>
    match tokens.span (· != .equals) with
    | (key, [.equals, value]) => do return .entry (← path? key) (← scalar? value)
    | _ => none

/-! ## Tables -/

/-- What stands at a path. -/
inductive Node where
  | value
  /-- A table with a line of its own. -/
  | table
  /-- A table that lines for tables inside it lead through. -/
  | passed
  /-- A table that keys with dots lead into. -/
  | dotted
  deriving DecidableEq, Repr

/-- What a file says: what stands where, and the values in their order. -/
structure Content where
  nodes : List (Path × Node)
  entries : List (Path × Scalar)
  deriving Repr

namespace Content

def node? (content : Content) (path : Path) : Option Node :=
  content.nodes.lookup path

/-- Lets something stand at a path. -/
def put (content : Content) (path : Path) (node : Node) : Content :=
  { content with nodes := (path, node) :: content.nodes }

/-- Goes from a table by names into the tables inside it and adds those that are not there. With
`dots` the names are those of a key with dots, which lead into no table with a line of its own. -/
def descend (dots : Bool) (content : Content) (table : Path) : List String → Option Content
  | [] => some content
  | name :: rest =>
    let table := table ++ [name]
    match content.node? table with
    | none => descend dots (content.put table (if dots then .dotted else .passed)) table rest
    | some .value => none
    | some .table => if dots then none else descend dots content table rest
    | some _ => descend dots content table rest

/-- Adds a line for a table. -/
def addTable (content : Content) (path : Path) : Option Content := do
  let content ← content.descend false [] path.dropLast
  match content.node? path with
  | none | some .passed => return content.put path .table
  | some _ => none

/-- Adds a value below a line for a table. -/
def addEntry (content : Content) (table path : Path) (value : Scalar) : Option Content := do
  let content ← content.descend true table path.dropLast
  guard (path.length = 1 || content.node? (table ++ path.dropLast) = some .dotted)
  let path := table ++ path
  guard (content.node? path).isNone
  let content := content.put path .value
  return { content with entries := content.entries ++ [(path, value)] }

/-- Adds lines below the line for the table `table`. -/
def addLines (content : Content) (table : Path) : List Line → Option Content
  | [] => some content
  | .blank :: rest => addLines content table rest
  | .table path :: rest => do addLines (← content.addTable path) path rest
  | .entry path value :: rest => do addLines (← content.addEntry table path value) table rest

end Content

/-- A text without the mark of its encoding that may stand before it. -/
def unmarked : List Char → List Char
  | '\ufeff' :: text => text
  | text => text

/-- The values of a file in their order, if it can be read. -/
def entries? (text : String) : Option (List (Path × Scalar)) := do
  let lines ← ((← tokens (unmarked text.toList)).splitOn .newline).mapM line?
  return (← Content.addLines ⟨[], []⟩ [] lines).entries

end Treatise.Config.Toml

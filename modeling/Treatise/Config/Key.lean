import Treatise.Text.Decimal
import Treatise.Text.Lowercase

/-!
# Keys

A key leads step by step to a value: by a name into a table, or by a number in square brackets into
a list. It is written with dots before the names, and the case of letters does not count.
-/

namespace Treatise.Config

/-- A step into a table or a list. -/
inductive Step where
  | name (text : String)
  | item (index : Nat)
  deriving DecidableEq, Repr

/-- A key with the tables and lists it lies in, the outermost first. -/
abbrev KeyPath := List Step

/-- The step into a table by a name in any case. -/
def Step.ofName (text : String) : Step :=
  .name (Text.lowercase text)

def Step.index? : Step → Option Nat
  | .name _ => none
  | .item index => some index

namespace KeyPath

/-- Whether two keys cannot both have a value: one lies in the other or is the other, or the same
value would be a table for one of them and a list for the other. -/
def excludes : KeyPath → KeyPath → Bool
  | .name first :: rest, .name second :: rest' => first = second && excludes rest rest'
  | .item first :: rest, .item second :: rest' => first = second && excludes rest rest'
  | _, _ => true

/-- Whether a character can be part of a name. -/
def isNameChar (character : Char) : Bool :=
  character.isAlphanum || character = '_' || character = '-' || character = ' '

/-- Reads the number of an item, which blanks may stand around. -/
def index? (text : List Char) : Option Nat :=
  let isGap (character : Char) : Bool := character = ' ' || character = '\t'
  let digits := ((text.dropWhile isGap).reverse.dropWhile isGap).reverse
  if digits.isEmpty || !digits.all Char.isDigit || Text.decimal digits ≥ UInt64.size / 2 then none
  else some (Text.decimal digits)

mutual

/-- Reads a key after a part of a name, whose characters `run` holds in reverse. -/
def name? (run : List Char) : List Char → Option KeyPath
  | [] => if run.isEmpty then none else some [.ofName (String.ofList run.reverse)]
  | character :: rest =>
    if isNameChar character then name? (character :: run) rest
    else if run.isEmpty then none
    else
      let found := Step.ofName (String.ofList run.reverse)
      if character = '.' then (name? [] rest).map (found :: ·)
      else if character = '[' then (item? [] rest).map (found :: ·)
      else none
termination_by structural text => text

/-- Reads a key after a part of the number of an item, whose characters `run` holds in reverse. -/
def item? (run : List Char) : List Char → Option KeyPath
  | [] => none
  | ']' :: rest => do return .item (← index? run.reverse) :: (← after? rest)
  | character :: rest => item? (character :: run) rest
termination_by structural text => text

/-- Reads a key after an item. -/
def after? : List Char → Option KeyPath
  | [] => some []
  | '.' :: rest => name? [] rest
  | '[' :: rest => item? [] rest
  | _ => none
termination_by structural text => text

end

def ofText? (text : String) : Option KeyPath :=
  name? [] text.toList

end KeyPath

end Treatise.Config

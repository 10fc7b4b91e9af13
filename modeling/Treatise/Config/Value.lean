import Treatise.Text.Decimal
import Treatise.Text.Lowercase

/-!
# Values of settings

A value need not have the type of the setting it is given for: a number or a word such as `yes` can
stand for a truth value, and a text can stand for a number.
-/

namespace Treatise.Config

/-- A value in a configuration. -/
inductive Scalar where
  | bool (value : Bool)
  | int (value : Int)
  | text (value : String)
  deriving DecidableEq, Repr

/-- The truth value of a word. -/
def wordBool? (word : String) : Option Bool :=
  if ["true", "on", "yes"].contains word then some true
  else if ["false", "off", "no"].contains word then some false
  else none

/-- Reads digits, which a plus sign may stand before, as a number of 64 bits. -/
def unsigned? (text : List Char) : Option Nat :=
  let digits := if text.head? = some '+' then text.tail else text
  if digits.isEmpty || !digits.all Char.isDigit || Text.decimal digits ≥ UInt64.size then none
  else some (Text.decimal digits)

namespace Scalar

/-- A value as it is shown where it does not fit. -/
def describe : Scalar → String
  | bool value => "boolean `" ++ toString value ++ "`"
  | int value => "integer `" ++ toString value ++ "`"
  | text value => "string \"" ++ value ++ "\""

/-- The truth value that a value stands for. -/
def toBool? : Scalar → Option Bool
  | bool value => some value
  | int value => some (value != 0)
  | text value =>
    let word := Text.lowercase value
    if word = "1" then some true else if word = "0" then some false else wordBool? word

/-- The natural number that a value stands for. -/
def toNat? : Scalar → Option Nat
  | bool value => some value.toNat
  | int value => if value < 0 then none else some value.toNat
  | text value =>
    match wordBool? (Text.lowercase value) with
    | some truth => some truth.toNat
    | none => unsigned? value.toList

/-- The text that a value stands for. -/
def toText : Scalar → String
  | bool value => toString value
  | int value => toString value
  | text value => value

end Scalar

end Treatise.Config

/-!
# Decimal numbers

The value of digits to the base ten.
-/

namespace Treatise.Text

def digitValue (digit : Char) : Nat :=
  digit.toNat - '0'.toNat

/-- The value of digits, the most significant one first. -/
def decimal (digits : List Char) : Nat :=
  digits.foldl (fun value digit => 10 * value + digitValue digit) 0

end Treatise.Text

/-!
# Sets of characters

A set of characters is given by ranges of code points, in rising order and without overlaps.
-/

namespace Treatise.Text

/-- Ranges of code points, each from its first to its last one. -/
abbrev Ranges := List (Nat × Nat)

/-- Whether a code point lies in one of the ranges. The ranges rise, so a search can end early. -/
def Ranges.holds (code : Nat) : Ranges → Bool
  | [] => false
  | (first, last) :: rest => first ≤ code && (code ≤ last || Ranges.holds code rest)

end Treatise.Text

/-!
# Runs

A run is a longest piece of text at the beginning of a text that is made of characters of one sort.
-/

namespace Treatise.Text

/-- The length of the run of characters of one sort that a text begins with. -/
def runLength (sort : Char → Bool) (text : List Char) : Nat :=
  (text.takeWhile sort).length

end Treatise.Text

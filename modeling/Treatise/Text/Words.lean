import Treatise.Table
import Treatise.Text.Alphanumeric
import Treatise.Text.Lowercase

/-!
# Words

The words of a text are its longest runs of letters and digits, in lowercase.
-/

namespace Treatise.Text

/-- Splits characters into runs of letters and digits. `current` is the run so far, reversed. -/
def runsFrom (current : List Char) : List Char → List (List Char)
  | [] => if current.isEmpty then [] else [current.reverse]
  | character :: rest =>
    if isAlphanumeric character then runsFrom (character :: current) rest
    else if current.isEmpty then runsFrom [] rest
    else current.reverse :: runsFrom [] rest

/-- The words of a text in rising order, each once. -/
def words (text : String) : List String :=
  sortedNames ((runsFrom [] text.toList).map fun run => lowercase (String.ofList run))

end Treatise.Text

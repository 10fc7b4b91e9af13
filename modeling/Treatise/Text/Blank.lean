import Treatise.Text.Ranges

/-!
# Blank characters

The characters with the property White_Space, which do not count at the ends of a text.
-/

namespace Treatise.Text

/-- The blank characters. -/
def blankRanges : Ranges := [
  (0x9, 0xd), (0x20, 0x20), (0x85, 0x85), (0xa0, 0xa0), (0x1680, 0x1680), (0x2000, 0x200a),
  (0x2028, 0x2029), (0x202f, 0x202f), (0x205f, 0x205f), (0x3000, 0x3000)]

def isBlank (character : Char) : Bool :=
  Ranges.holds character.toNat blankRanges

/-- Characters without the blanks at both ends. -/
def trimmed (text : List Char) : List Char :=
  ((text.dropWhile isBlank).reverse.dropWhile isBlank).reverse

end Treatise.Text

/-!
# Bytes of a text

A text takes one to four bytes for each character. An offset in bytes can stand between two
characters, or inside one, where the text cannot be cut.
-/

namespace Treatise.Text

/-- The number of bytes that a text takes. -/
def byteLength : List Char → Nat
  | [] => 0
  | character :: rest => character.utf8Size + byteLength rest

/-- What stands before and after a byte offset, unless the offset is inside a character or past the
end. -/
def cutAt? : List Char → Nat → Option (List Char × List Char)
  | text, 0 => some ([], text)
  | [], _ + 1 => none
  | character :: rest, offset =>
    if character.utf8Size ≤ offset then
      (cutAt? rest (offset - character.utf8Size)).map fun (before, after) =>
        (character :: before, after)
    else none

/-- What stands between two byte offsets, unless one of them is inside a character or past the
end. -/
def slice? (text : List Char) (first last : Nat) : Option (List Char) := do
  let (_, after) ← cutAt? text first
  let (between, _) ← cutAt? after (last - first)
  return between

end Treatise.Text

/-!
# Quoted text

A text between double quotes, as JSON has it: quotes and backslashes stand behind a backslash, and
control characters are written by escapes.
-/

namespace Treatise.Text

/-- The digits of a number below 256 to the base sixteen. -/
def hexPair (value : Nat) : List Char :=
  [Nat.digitChar (value / 16), Nat.digitChar (value % 16)]

/-- A character as it stands between quotes. -/
def quotedChar (character : Char) : List Char :=
  if character = '"' then ['\\', '"']
  else if character = '\\' then ['\\', '\\']
  else if character = '\x08' then ['\\', 'b']
  else if character = '\t' then ['\\', 't']
  else if character = '\n' then ['\\', 'n']
  else if character = '\x0c' then ['\\', 'f']
  else if character = '\r' then ['\\', 'r']
  else if character.toNat < 0x20 then ['\\', 'u', '0', '0'] ++ hexPair character.toNat
  else [character]

def quoted (text : String) : String :=
  "\"" ++ String.ofList (text.toList.flatMap quotedChar) ++ "\""

end Treatise.Text

import FederatedQuery.Text.Invisible

/-! Quoted text for debugging displays. Unlike JSON text it also escapes every character
that cannot be seen.
-/

namespace FederatedQuery.Text

/-- How a character is written in a debugging display. -/
def displayed (c : Char) : List Char :=
  if c = '"' then ['\\', '"']
  else if c = '\\' then ['\\', '\\']
  else if c.toNat = 0 then ['\\', '0']
  else if c = '\t' then ['\\', 't']
  else if c = '\n' then ['\\', 'n']
  else if c = '\r' then ['\\', 'r']
  else if isInvisible c then
    ['\\', 'u', '\x7b'] ++ Nat.toDigits 16 c.toNat ++ ['\x7d']
  else [c]

/-- The quoted text of a string in a debugging display. -/
def displayQuoted (text : String) : String :=
  String.ofList ('"' :: text.toList.flatMap displayed ++ ['"'])

end FederatedQuery.Text

import PodAttach.Text.Digits
import PodAttach.Text.Printable

/-!
# Quoted texts in messages

A text inside a message stands between double quotes, with escapes for the
quote, the backslash and every character that does not show as itself.
-/

namespace PodAttach.Text

/-- A character as it stands between quotes. -/
def quotedChar (c : Char) : List Char :=
  if c == '"' then ['\\', '"']
  else if c == '\\' then ['\\', '\\']
  else if c == '\n' then ['\\', 'n']
  else if c == '\r' then ['\\', 'r']
  else if c == '\t' then ['\\', 't']
  else if c.toNat == 0 then ['\\', '0']
  else if isPrintable c then [c]
  else ['\\', 'u', '\x7b'] ++ hexDigits 1 c.toNat ++ ['\x7d']

/-- The text between quotes. -/
def quoted (s : String) : String :=
  String.ofList ('"' :: s.toList.flatMap quotedChar ++ ['"'])

end PodAttach.Text

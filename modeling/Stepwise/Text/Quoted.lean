/-
# Quoted text in messages

A message that names a piece of text quotes it: double quotes around it, a
backslash before a double quote or a backslash, the letters `n`, `r`, `t` and `0`
for the four common controls, and the number in hexadecimal for every other
character without a glyph.

Key definitions: `Text.quoted`, `Text.hexDigits`.
-/
import Stepwise.Text.Hidden

namespace Stepwise
namespace Text

/-- The hexadecimal digits of `n` in lower case, without leading zeros. -/
def hexDigits (n : Nat) : List Char := Nat.toDigits 16 n

/-- One character as a quoted text shows it. -/
def quotedChar (c : Char) : List Char :=
  if c = '"' then ['\\', '"']
  else if c = '\\' then ['\\', '\\']
  else if c = '\n' then ['\\', 'n']
  else if c = '\r' then ['\\', 'r']
  else if c = '\t' then ['\\', 't']
  else if c.toNat = 0 then ['\\', '0']
  else if isHidden c then ['\\', 'u', '{'] ++ hexDigits c.toNat ++ ['}']
  else [c]

/-- `s` in double quotes, with escapes. -/
def quoted (s : String) : String :=
  String.ofList ('"' :: s.toList.flatMap quotedChar ++ ['"'])

end Text
end Stepwise

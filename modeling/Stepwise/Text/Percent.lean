/-
# Percent encoding

A byte that cannot stand for itself is written as a percent sign and two hexadecimal
digits. In the form that the fields of a query have, all bytes are encoded so but those
of letters, digits and four marks, and a space is written as a plus sign.

Key definitions: `Text.percentByte`, `Text.percentEncode`, `Text.formEncode`.
-/
namespace Stepwise
namespace Text

/-- The hexadecimal digit in upper case for a number below sixteen. -/
def upperHexDigit (n : Nat) : Char :=
  if n < 10 then Char.ofNat ('0'.toNat + n) else Char.ofNat ('A'.toNat + (n - 10))

/-- An encoded byte. -/
def percentByte (b : UInt8) : List Char :=
  ['%', upperHexDigit (b.toNat / 16), upperHexDigit (b.toNat % 16)]

/-- The encoded bytes of a character. -/
def percentChar (c : Char) : List Char :=
  (String.ofList [c]).toUTF8.toList.flatMap percentByte

/-- A text in which the characters that `keeps` does not allow are encoded. -/
def percentEncode (keeps : Char → Bool) (cs : List Char) : List Char :=
  cs.flatMap fun c => if keeps c then [c] else percentChar c

/-- The characters that stand for themselves in a field of a query. -/
def isFormChar (c : Char) : Bool := c.isAlphanum || c = '*' || c = '-' || c = '.' || c = '_'

/-- A name or a value in the fields of a query. -/
def formEncode (s : String) : String :=
  String.ofList <| s.toList.flatMap fun c =>
    if c = ' ' then ['+'] else if isFormChar c then [c] else percentChar c

end Text
end Stepwise

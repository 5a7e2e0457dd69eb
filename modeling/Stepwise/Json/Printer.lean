/-
# Writing JSON

`Json.chars` is the compact text of a value, without blanks; `Json.prettyChars`
puts every item and field on a line of its own, two spaces deeper than its
container. Fields are written in the order of the value, so a record keeps the
order of its fields and a canonical value has its keys sorted. Only the quote, the
backslash and the characters below U+0020 are escaped.

Key definitions: `Json.chars`, `Json.compact`, `Json.prettyChars`, `Json.pretty`,
`Json.numberLayout`.
-/
import Stepwise.Decimal.Layout
import Stepwise.Json.Basic

namespace Stepwise
namespace Json

/-- Doubles with leading exponent from `-5` up to `15` are written positionally, a
whole one with `.0`; other exponents follow an `e` and have a sign. -/
def numberLayout : Decimal.Layout :=
  { least := -5, greatest := 15, whole := ['.', '0'], mark := 'e', plus := ['+'] }

/-- The text of a whole number. -/
def intChars : Int → List Char
  | .ofNat n => Nat.toDigits 10 n
  | .negSucc n => '-' :: Nat.toDigits 10 (n + 1)

/-- The text of a finite double. -/
def floatChars (d : Double) : List Char :=
  let text := numberLayout.write d.shortest
  if d.isNegative then '-' :: text else text

/-- The text of a number. -/
def Number.chars : Number → List Char
  | .int i => intChars i
  | .float d => floatChars d

/-- The text of a number. -/
def Number.text (n : Number) : String := String.ofList n.chars

/-- Four hexadecimal digits of a number below `2 ^ 16`. -/
def hexFour (n : Nat) : List Char :=
  [Nat.digitChar (n / 4096 % 16), Nat.digitChar (n / 256 % 16),
   Nat.digitChar (n / 16 % 16), Nat.digitChar (n % 16)]

/-- One character inside a string. -/
def escape (c : Char) : List Char :=
  if c = '"' then ['\\', '"']
  else if c = '\\' then ['\\', '\\']
  else if c.toNat = 0x08 then ['\\', 'b']
  else if c.toNat = 0x0C then ['\\', 'f']
  else if c = '\n' then ['\\', 'n']
  else if c = '\r' then ['\\', 'r']
  else if c = '\t' then ['\\', 't']
  else if c.toNat < 0x20 then ['\\', 'u'] ++ hexFour c.toNat
  else [c]

/-- A string between quotes. -/
def stringChars (s : String) : List Char := '"' :: s.toList.flatMap escape ++ ['"']

mutual

/-- The compact text of a value. -/
def chars : Json → List Char
  | .null => ['n', 'u', 'l', 'l']
  | .bool true => ['t', 'r', 'u', 'e']
  | .bool false => ['f', 'a', 'l', 's', 'e']
  | .num n => n.chars
  | .str s => stringChars s
  | .arr [] => ['[', ']']
  | .arr (v :: vs) => '[' :: chars v ++ itemChars vs
  | .obj [] => ['{', '}']
  | .obj ((k, v) :: rest) => '{' :: stringChars k ++ ':' :: chars v ++ fieldChars rest

/-- The items after the first, and the closing bracket. -/
def itemChars : List Json → List Char
  | [] => [']']
  | v :: vs => ',' :: chars v ++ itemChars vs

/-- The fields after the first, and the closing brace. -/
def fieldChars : Fields → List Char
  | [] => ['}']
  | (k, v) :: rest => ',' :: stringChars k ++ ':' :: chars v ++ fieldChars rest

end

/-- The compact text of a value. -/
def compact (v : Json) : String := String.ofList v.chars

/-- A new line at the given depth. -/
def newLine (depth : Nat) : List Char := '\n' :: List.replicate (2 * depth) ' '

mutual

/-- The text of a value whose container stands at the given depth. -/
def prettyChars (depth : Nat) : Json → List Char
  | .arr (v :: vs) =>
    '[' :: newLine (depth + 1) ++ prettyChars (depth + 1) v ++ prettyItems depth vs
  | .obj ((k, v) :: rest) =>
    '{' :: newLine (depth + 1) ++ stringChars k ++ ':' :: ' ' ::
      prettyChars (depth + 1) v ++ prettyFields depth rest
  | v => chars v

/-- The items after the first, each on its line, and the closing bracket. -/
def prettyItems (depth : Nat) : List Json → List Char
  | [] => newLine depth ++ [']']
  | v :: vs =>
    ',' :: newLine (depth + 1) ++ prettyChars (depth + 1) v ++ prettyItems depth vs

/-- The fields after the first, each on its line, and the closing brace. -/
def prettyFields (depth : Nat) : Fields → List Char
  | [] => newLine depth ++ ['}']
  | (k, v) :: rest =>
    ',' :: newLine (depth + 1) ++ stringChars k ++ ':' :: ' ' ::
      prettyChars (depth + 1) v ++ prettyFields depth rest

end

/-- The text of a value with one line for each item and field. -/
def pretty (v : Json) : String := String.ofList (prettyChars 0 v)

end Json
end Stepwise

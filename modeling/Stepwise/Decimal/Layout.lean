/-
# Laying out a decimal

A layout says how the digits and the exponent of a decimal become text: which
exponents are written positionally, and how the exponent looks otherwise.

Key definitions: `Decimal.Layout`, `Decimal.Layout.write`.
-/
import Stepwise.Decimal.Shortest

namespace Stepwise
namespace Decimal

/-- The choices of a decimal format. -/
structure Layout where
  /-- The least leading exponent written positionally. -/
  least : Int
  /-- The greatest leading exponent written positionally. -/
  greatest : Int
  /-- What follows the digits of a whole number. -/
  whole : List Char
  /-- The mark before the exponent. -/
  mark : Char
  /-- What precedes a positive exponent. -/
  plus : List Char

/-- The digits of `d` in decimal. -/
def digitChars (d : Decimal) : List Char := Nat.toDigits 10 d.digits

/-- `d` without exponent, its leading exponent being `e`. -/
def positional (l : Layout) (d : Decimal) (e : Int) : List Char :=
  let ds := d.digitChars
  if e < 0 then ['0', '.'] ++ List.replicate (-e - 1).toNat '0' ++ ds
  else
    let before := e.toNat + 1
    if ds.length ≤ before then ds ++ List.replicate (before - ds.length) '0' ++ l.whole
    else ds.take before ++ '.' :: ds.drop before

/-- `d` with its leading exponent `e` written out. -/
def scientific (l : Layout) (d : Decimal) (e : Int) : List Char :=
  let mantissa := match d.digitChars with
    | [] => []
    | [c] => [c]
    | c :: cs => c :: '.' :: cs
  let sign := if e < 0 then ['-'] else l.plus
  mantissa ++ l.mark :: sign ++ Nat.toDigits 10 e.natAbs

/-- The text of a decimal. -/
def Layout.write (l : Layout) (d : Decimal) : List Char :=
  let e := if d.digits = 0 then 0 else d.leadingExponent
  if l.least ≤ e ∧ e ≤ l.greatest then positional l d e else scientific l d e

end Decimal
end Stepwise

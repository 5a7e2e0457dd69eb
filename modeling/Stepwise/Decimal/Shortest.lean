/-
# The shortest decimal that reads back

Of all decimals that round to a given double, the shortest is the one with the
fewest significant digits; among those with the same number of digits it is the
one nearest to the double, an exact tie going to the even last digit. Everything
is exact natural-number arithmetic on the significand and exponent.

Key definitions: `Decimal`, `Double.interval`, `Double.shortest`.
-/
import Stepwise.Decimal.Double

namespace Stepwise

/-- The number `digits * 10 ^ exponent`. -/
structure Decimal where
  /-- The significant digits, read as one natural number. -/
  digits : Nat
  /-- The power of ten of the last digit. -/
  exponent : Int
  deriving DecidableEq, Repr

namespace Decimal

/-- How many decimal digits `n` has; zero has none. -/
def digitCount (n : Nat) : Nat := if n = 0 then 0 else (Nat.toDigits 10 n).length

/-- The power of ten of the first digit. -/
def leadingExponent (d : Decimal) : Int := d.exponent + digitCount d.digits - 1

/-- `d` without the zeros at its end, at most `fuel` of them. -/
def trimZeros : Nat → Decimal → Decimal
  | 0, d => d
  | fuel + 1, d =>
    if d.digits % 10 = 0 ∧ d.digits ≠ 0 then trimZeros fuel ⟨d.digits / 10, d.exponent + 1⟩
    else d

end Decimal

namespace Double

/-- The reals that round to a double, as natural numerators over one denominator. -/
structure Interval where
  /-- Lower end. -/
  low : Nat
  /-- The double itself. -/
  value : Nat
  /-- Upper end. -/
  high : Nat
  /-- The common denominator. -/
  den : Nat
  /-- Whether the two ends round to the double. -/
  closed : Bool

/-- The interval of a finite positive double. The gap below a power of two is half
as wide as the one above it. -/
def interval (d : Double) : Interval :=
  let (m, k) := d.magnitude
  let below := if m = Decimal.twoTo 52 ∧ 0 < k then 1 else 2
  { low := (4 * m - below) * Decimal.twoTo k
    value := 4 * m * Decimal.twoTo k
    high := (4 * m + 2) * Decimal.twoTo k
    den := Decimal.twoTo 1076
    closed := m % 2 == 0 }

/-- The interval in units of `10 ^ p`. -/
def Interval.scaled (i : Interval) (p : Int) : Interval :=
  if 0 ≤ p then { i with den := i.den * Decimal.tenTo p.toNat }
  else
    let s := Decimal.tenTo (-p).toNat
    { i with low := i.low * s, value := i.value * s, high := i.high * s }

/-- Whether the whole number `n` lies in the interval. -/
def Interval.holds (i : Interval) (n : Nat) : Bool :=
  let x := n * i.den
  if i.closed then i.low ≤ x && x ≤ i.high else i.low < x && x < i.high

/-- The whole number in the interval that is nearest to the double, if any. -/
def Interval.nearest? (i : Interval) : Option Nat :=
  let a := i.value / i.den
  let r := i.value % i.den
  match i.holds a && a != 0, i.holds (a + 1) with
  | true, true =>
    if 2 * r < i.den then some a
    else if 2 * r = i.den then some (a + a % 2)
    else some (a + 1)
  | true, false => some a
  | false, true => some (a + 1)
  | false, false => none

/-- The power of ten of the first digit of a positive number `num / den`. -/
def leadingPower (num den : Nat) : Int :=
  if den ≤ num then (Decimal.digitCount (num / den) : Int) - 1
  else -(Decimal.digitCount ((den - 1) / num) : Int)

/-- The decimal with the fewest digits, of at least `count` and less than
`count + fuel`, that lies in the interval. -/
def searchDigits (i : Interval) (lead : Int) : Nat → Nat → Option Decimal
  | 0, _ => none
  | fuel + 1, count =>
    let p := lead - count + 1
    match (i.scaled p).nearest? with
    | some n => some (Decimal.trimZeros 20 ⟨n, p⟩)
    | none => searchDigits i lead fuel (count + 1)

/-- The shortest decimal that rounds to the magnitude of a finite double. -/
def shortest (d : Double) : Decimal :=
  if d.isZero then ⟨0, 0⟩
  else
    let i := d.interval
    (searchDigits i (leadingPower i.value i.den) 17 1).getD ⟨0, 0⟩

end Double
end Stepwise

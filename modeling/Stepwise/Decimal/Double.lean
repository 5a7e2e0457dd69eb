/-
# Binary numbers of double precision

A `Double` is the 64-bit pattern of a number in the binary64 format. Rounding is
done in exact natural-number arithmetic: `ofRatio` is the double nearest to a
quotient, an exact half going to the even significand. Sums, products and quotients
are the exact ones rounded once.

Key definitions: `Double`, `Double.magnitude`, `Double.ofRatio`, `Double.add`,
`Double.mul`, `Double.div`.
-/
import Stepwise.Decimal.Power

namespace Stepwise

/-- A number in the binary64 format, as its bit pattern. -/
structure Double where
  /-- Sign, eleven exponent bits and fifty-two fraction bits. -/
  bits : UInt64
  deriving DecidableEq, Repr, Inhabited

namespace Double

/-- Whether the sign bit is set. -/
def isNegative (d : Double) : Bool := d.bits.toNat / Decimal.twoTo 63 == 1

/-- The bits below the sign. -/
def unsigned (d : Double) : Nat := d.bits.toNat % Decimal.twoTo 63

/-- The bits of infinity. -/
def infinityBits : Nat := 2047 * Decimal.twoTo 52

/-- Whether `d` is neither infinite nor the result of an undefined operation. -/
def isFinite (d : Double) : Bool := d.unsigned < infinityBits

/-- Whether `d` is zero of either sign. -/
def isZero (d : Double) : Bool := d.unsigned == 0

/-- The double with the given sign and lower bits. -/
def ofSign (negative : Bool) (lower : Nat) : Double :=
  ⟨UInt64.ofNat (if negative then Decimal.twoTo 63 + lower else lower)⟩

/-- Positive zero. -/
def zero : Double := ofSign false 0

/-- The same magnitude with the other sign. -/
def neg (d : Double) : Double := ofSign (!d.isNegative) d.unsigned

/-- `m` and `k` such that the magnitude of a finite double is `m * 2 ^ k / 2 ^ 1074`. -/
def magnitude (d : Double) : Nat × Nat :=
  let e := d.unsigned / Decimal.twoTo 52
  let f := d.unsigned % Decimal.twoTo 52
  if e = 0 then (f, 0) else (Decimal.twoTo 52 + f, e - 1)

/-- Whether two doubles denote the same number; the two zeros do. -/
def sameValue (a b : Double) : Bool := a = b || (a.isZero && b.isZero)

/-- The natural number nearest to `num / den`, an exact half going to the even
neighbour. -/
def roundHalfEven (num den : Nat) : Nat :=
  let q := num / den
  let r := num % den
  if 2 * r < den then q
  else if 2 * r = den then q + q % 2
  else q + 1

/-- The exponent `k` for which `num / den` in units of `2 ^ k / 2 ^ 1074` has at
most fifty-three binary digits, and exactly so many if `k` is positive. -/
def scaleOf (num den : Nat) : Nat :=
  let guess := num.log2 + 1074 - den.log2 - 52
  if guess = 0 then 0
  else if num * Decimal.twoTo 1074 < den * Decimal.twoTo (guess + 52) then guess - 1
  else guess

/-- The lower bits of the double nearest to `num / den`, those of infinity if the
quotient is too large. -/
def nearestBits (num den : Nat) : Nat :=
  if num = 0 then 0
  else
    let k := scaleOf num den
    min
      (k * Decimal.twoTo 52 +
        roundHalfEven (num * Decimal.twoTo 1074) (den * Decimal.twoTo k))
      infinityBits

/-- The double nearest to `num / den` with the given sign. -/
def ofRatio (negative : Bool) (num den : Nat) : Double :=
  ofSign negative (nearestBits num den)

/-- The double nearest to a natural number. -/
def ofNat (n : Nat) : Double := ofRatio false n 1

/-- The double nearest to `10 ^ e`. -/
def powerOfTen (e : Nat) : Double := ofNat (Decimal.tenTo e)

/-- The product of two finite doubles, rounded once. -/
def mul (a b : Double) : Double :=
  let (m, j) := a.magnitude
  let (n, k) := b.magnitude
  ofRatio (a.isNegative != b.isNegative) (m * n * Decimal.twoTo (j + k)) (Decimal.twoTo 2148)

/-- A finite double in units of `2 ^ -1074`. -/
def units (d : Double) : Int :=
  let (m, k) := d.magnitude
  let n : Int := m * Decimal.twoTo k
  if d.isNegative then -n else n

/-- The sum of two finite doubles, rounded once. -/
def add (a b : Double) : Double :=
  let sum := a.units + b.units
  let negative := if sum = 0 then a.isNegative && b.isNegative else decide (sum < 0)
  ofRatio negative sum.natAbs (Decimal.twoTo 1074)

/-- The quotient of two finite doubles, rounded once; the divisor is not zero. -/
def div (a b : Double) : Double :=
  let (m, j) := a.magnitude
  let (n, k) := b.magnitude
  ofRatio (a.isNegative != b.isNegative) (m * Decimal.twoTo j) (n * Decimal.twoTo k)

end Double
end Stepwise

/-
# Reading numbers

A number is read one character at a time. Up to sixty-four bits of its digits form
the significand; digits that do not fit are dropped, those before the point raising
the exponent. A number without point and exponent that fits is a whole number. Any
other is the significand, rounded to a double, times or divided by one power of ten,
rounded again; a number too large for a double is refused and one too small is zero.

Key definitions: `Json.NumberScan`, `Json.NumberScan.step`,
`Json.NumberScan.value`, `Json.scaled`.
-/
import Stepwise.Json.Basic

namespace Stepwise
namespace Json

/-- Where in a number the reader stands. -/
inductive NumberPhase where
  /-- After the minus sign. -/
  | sign
  /-- After a leading zero. -/
  | zero
  /-- In the digits before the point. -/
  | whole
  /-- Before the point, past what the significand holds. -/
  | wholeRest
  /-- After the point. -/
  | point
  /-- In the digits after the point. -/
  | fraction
  /-- After the point, past what the significand holds. -/
  | fractionRest
  /-- After the exponent mark. -/
  | mark
  /-- After the sign of the exponent. -/
  | markSign
  /-- In the digits of the exponent. -/
  | power
  /-- In an exponent so large that the number is zero. -/
  | vanished
  deriving DecidableEq, Repr

/-- What is known of a number part of which has been read. -/
structure NumberScan where
  phase : NumberPhase
  negative : Bool
  significand : Nat := 0
  /-- Dropped digits before the point less kept digits after it. -/
  exponent : Int := 0
  powerNegative : Bool := false
  power : Nat := 0
  deriving DecidableEq, Repr

/-- Why a number is refused. -/
inductive NumberFault where
  | unfinished
  | malformed
  | outOfRange
  deriving DecidableEq, Repr

/-- What a character does to a number. -/
inductive NumberStep where
  /-- It belongs to the number. -/
  | more (scan : NumberScan)
  /-- It ends the number. -/
  | stop
  /-- It cannot stand there. -/
  | fail (fault : NumberFault)

/-- The digit that a character stands for. -/
def digitValue (c : Char) : Nat := c.toNat - '0'.toNat

namespace NumberScan

/-- One more digit of the significand, if it still fits sixty-four bits. -/
def push? (s : NumberScan) (c : Char) : Option NumberScan :=
  let n := 10 * s.significand + digitValue c
  if n < 18446744073709551616 then some { s with significand := n } else none

/-- The first character of a number. -/
def start (c : Char) : Option NumberScan :=
  if c = '-' then some { phase := .sign, negative := true }
  else if c = '0' then some { phase := .zero, negative := false }
  else if c.isDigit then
    some { phase := .whole, negative := false, significand := digitValue c }
  else none

/-- A digit in the exponent. The exponent is given up above `2 ^ 31`. -/
def pushPower (s : NumberScan) (c : Char) : NumberStep :=
  let n := 10 * s.power + digitValue c
  if n < 2147483648 then .more { s with phase := .power, power := n }
  else if s.significand = 0 || s.powerNegative then .more { s with phase := .vanished }
  else .fail .outOfRange

/-- The character after the digits before the point. -/
def afterWhole (s : NumberScan) (c : Char) : NumberStep :=
  if c = '.' then .more { s with phase := .point }
  else if c = 'e' || c = 'E' then .more { s with phase := .mark }
  else .stop

/-- The character after the digits behind the point. -/
def afterFraction (s : NumberScan) (c : Char) : NumberStep :=
  if c = 'e' || c = 'E' then .more { s with phase := .mark } else .stop

/-- What the next character does. -/
def step (s : NumberScan) (c : Char) : NumberStep :=
  match s.phase with
  | .sign =>
    if c = '0' then .more { s with phase := .zero }
    else if c.isDigit then .more { s with phase := .whole, significand := digitValue c }
    else .fail .malformed
  | .zero => if c.isDigit then .fail .malformed else s.afterWhole c
  | .whole =>
    if c.isDigit then
      match s.push? c with
      | some s' => .more s'
      | none => .more { s with phase := .wholeRest, exponent := 1 }
    else s.afterWhole c
  | .wholeRest =>
    if c.isDigit then .more { s with exponent := s.exponent + 1 } else s.afterWhole c
  | .point =>
    if c.isDigit then
      match s.push? c with
      | some s' => .more { s' with phase := .fraction, exponent := s.exponent - 1 }
      | none => .more { s with phase := .fractionRest }
    else .fail .malformed
  | .fraction =>
    if c.isDigit then
      match s.push? c with
      | some s' => .more { s' with exponent := s.exponent - 1 }
      | none => .more { s with phase := .fractionRest }
    else s.afterFraction c
  | .fractionRest => if c.isDigit then .more s else s.afterFraction c
  | .mark =>
    if c = '+' then .more { s with phase := .markSign }
    else if c = '-' then .more { s with phase := .markSign, powerNegative := true }
    else if c.isDigit then s.pushPower c
    else .fail .malformed
  | .markSign => if c.isDigit then s.pushPower c else .fail .malformed
  | .power => if c.isDigit then s.pushPower c else .stop
  | .vanished => if c.isDigit then .more s else .stop

end NumberScan

/-- The significand times `10 ^ e`: one product or quotient of doubles, or for very
small exponents two quotients. -/
def scaled (significand : Nat) (e : Int) : Option Double :=
  let f := Double.ofNat significand
  if 0 ≤ e then
    if e ≤ 308 then
      let product := f.mul (Double.powerOfTen e.toNat)
      if product.isFinite then some product else none
    else if f.isZero then some f else none
  else if -308 ≤ e then some (f.div (Double.powerOfTen (-e).toNat))
  else if -616 ≤ e then
    some ((f.div (Double.powerOfTen 308)).div (Double.powerOfTen (-e - 308).toNat))
  else some Double.zero

namespace NumberScan

/-- The double that the scan denotes. -/
def float (s : NumberScan) : Except NumberFault Number :=
  let e := if s.powerNegative then s.exponent - s.power else s.exponent + s.power
  match scaled s.significand e with
  | some d => .ok (.float (if s.negative then d.neg else d))
  | none => .error .outOfRange

/-- The whole number that the scan denotes; minus zero and what lies below
`-2 ^ 63` are doubles. -/
def whole (s : NumberScan) : Number :=
  if !s.negative then .int s.significand
  else if s.significand = 0 || 9223372036854775808 < s.significand then
    .float (Double.ofNat s.significand).neg
  else .int (-s.significand)

/-- The number that ends here. -/
def value (s : NumberScan) : Except NumberFault Number :=
  match s.phase with
  | .sign | .point | .mark | .markSign => .error .unfinished
  | .zero | .whole => .ok s.whole
  | .wholeRest | .fraction | .fractionRest | .power => s.float
  | .vanished => .ok (.float (Double.ofSign s.negative 0))

end NumberScan
end Json
end Stepwise

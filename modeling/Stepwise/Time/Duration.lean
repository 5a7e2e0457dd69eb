/-
# Durations

A duration is written in the largest unit of which it has at least one, with as many
decimals as it needs.

Key definitions: `Duration`, `Duration.text`.
-/
namespace Stepwise

/-- A length of time. -/
structure Duration where
  seconds : Nat
  /-- Below one second. -/
  nanos : Nat
  deriving DecidableEq, Repr

namespace Duration

/-- A length of time, whatever the number of nanoseconds. -/
def ofParts (seconds nanos : Nat) : Duration :=
  ⟨seconds + nanos / 1000000000, nanos % 1000000000⟩

/-- Whole seconds. -/
def ofSeconds (seconds : Nat) : Duration := ⟨seconds, 0⟩

/-- Whole milliseconds. -/
def ofMillis (millis : Nat) : Duration := ofParts (millis / 1000) (millis % 1000 * 1000000)

/-- All of it in nanoseconds. -/
def totalNanos (d : Duration) : Nat := d.seconds * 1000000000 + d.nanos

/-- The `places` decimals of a fraction, without the zeros at the end. -/
def decimals (places fraction : Nat) : List Char :=
  let digits := Nat.toDigits 10 fraction
  let padded := List.replicate (places - digits.length) '0' ++ digits
  (padded.reverse.dropWhile (· = '0')).reverse

/-- A whole number of units and a fraction with `places` decimals. -/
def amount (whole places fraction : Nat) (unit : String) : String :=
  match decimals places fraction with
  | [] => toString whole ++ unit
  | ds => toString whole ++ "." ++ String.ofList ds ++ unit

/-- The text of a duration. -/
def text (d : Duration) : String :=
  if 0 < d.seconds then amount d.seconds 9 d.nanos "s"
  else if 1000000 ≤ d.nanos then amount (d.nanos / 1000000) 6 (d.nanos % 1000000) "ms"
  else if 1000 ≤ d.nanos then amount (d.nanos / 1000) 3 (d.nanos % 1000) "µs"
  else amount d.nanos 0 0 "ns"

end Duration
end Stepwise

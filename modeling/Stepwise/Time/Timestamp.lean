/-
# Points in time

A point in time counts seconds since the first of January 1970 in the Gregorian
calendar; a second that ends a minute may be followed by a leap second, which has no
number of its own. It is written by the rules of the Internet date format with the
zone `Z` and as few groups of three decimals as it needs. Reading is lenient: blanks may
stand between the parts, and any offset from the zone is taken into account.

Key definitions: `Timestamp`, `Timestamp.ofParts?`, `Timestamp.text`, `Timestamp.word`,
`Timestamp.read`.
-/
import Stepwise.Decimal.Power
import Stepwise.Text.Blank

namespace Stepwise

/-- A point in time. -/
structure Timestamp where
  /-- Seconds since the beginning of 1970. -/
  seconds : Int
  /-- Below one second, or below two in a leap second. -/
  nanos : Nat
  deriving DecidableEq, Repr

/-- A day of the Gregorian calendar. -/
structure Date where
  year : Int
  month : Nat
  day : Nat
  deriving DecidableEq, Repr

namespace Date

/-- Whether a year has a leap day. -/
def isLeap (year : Int) : Bool :=
  year % 4 = 0 && (year % 100 ≠ 0 || year % 400 = 0)

/-- The length of a month. -/
def monthLength (year : Int) (month : Nat) : Nat :=
  if month = 2 then (if isLeap year then 29 else 28)
  else if month = 4 || month = 6 || month = 9 || month = 11 then 30
  else 31

/-- Whether there is such a day. -/
def isValid (d : Date) : Bool :=
  1 ≤ d.month && d.month ≤ 12 && 1 ≤ d.day && d.day ≤ monthLength d.year d.month

/-- The years that can be told. -/
def inRange (year : Int) : Bool := -262143 ≤ year && year ≤ 262142

/-- Days from the first of January 1970. Years are counted from March, so that a leap
day is the last of its year. -/
def toDays (d : Date) : Int :=
  let y := if d.month ≤ 2 then d.year - 1 else d.year
  let m := if d.month ≤ 2 then d.month + 9 else d.month - 3
  let dayOfYear : Int := ((153 * m + 2) / 5 + d.day - 1 : Nat)
  y * 365 + y.fdiv 4 - y.fdiv 100 + y.fdiv 400 + dayOfYear - 719468

/-- The day with a number of days from the first of January 1970. -/
def ofDays (days : Int) : Date :=
  let z := days + 719468
  let era := z.fdiv 146097
  let dayOfEra := z - era * 146097
  let yearOfEra :=
    (dayOfEra - dayOfEra / 1460 + dayOfEra / 36524 - dayOfEra / 146096) / 365
  let dayOfYear := (dayOfEra - (365 * yearOfEra + yearOfEra / 4 - yearOfEra / 100)).toNat
  let m := (5 * dayOfYear + 2) / 153
  let year := yearOfEra + era * 400
  { year := if m < 10 then year else year + 1
    month := if m < 10 then m + 3 else m - 9
    day := dayOfYear - (153 * m + 2) / 5 + 1 }

end Date

namespace Timestamp

/-- The beginning of 1970. -/
def epoch : Timestamp := ⟨0, 0⟩

/-- The point in time, if it can be told: a leap second ends a minute. -/
def ofParts? (seconds : Int) (nanos : Nat) : Option Timestamp :=
  let day := Date.ofDays (seconds.fdiv 86400)
  if Date.inRange day.year && (nanos < 1000000000 ||
      (nanos < 2000000000 && seconds.fmod 60 = 59)) then
    some ⟨seconds, nanos⟩
  else none

/-- A number with at least `width` digits. -/
def padded (width n : Nat) : List Char :=
  let digits := Nat.toDigits 10 n
  List.replicate (width - digits.length) '0' ++ digits

/-- A year: four digits, or a sign and at least four digits. -/
def yearChars (year : Int) : List Char :=
  if 0 ≤ year ∧ year ≤ 9999 then padded 4 year.toNat
  else if year < 0 then '-' :: padded 4 year.natAbs
  else '+' :: padded 4 year.natAbs

/-- The decimals of a second, in groups of three. -/
def fractionChars (nanos : Nat) : List Char :=
  if nanos = 0 then []
  else if nanos % 1000000 = 0 then '.' :: padded 3 (nanos / 1000000)
  else if nanos % 1000 = 0 then '.' :: padded 6 (nanos / 1000)
  else '.' :: padded 9 nanos

/-- The text of a point in time. -/
def text (t : Timestamp) : String :=
  let date := Date.ofDays (t.seconds.fdiv 86400)
  let rest := (t.seconds.fmod 86400).toNat
  let leap := t.nanos / 1000000000
  String.ofList <|
    yearChars date.year ++ '-' :: padded 2 date.month ++ '-' :: padded 2 date.day ++
    'T' :: padded 2 (rest / 3600) ++ ':' :: padded 2 (rest / 60 % 60) ++
    ':' :: padded 2 (rest % 60 + leap) ++ fractionChars (t.nanos % 1000000000) ++ ['Z']

/-- A point in time in one word, down to the thousandth of a second. -/
def word (t : Timestamp) : String :=
  let date := Date.ofDays (t.seconds.fdiv 86400)
  let rest := (t.seconds.fmod 86400).toNat
  let leap := t.nanos / 1000000000
  String.ofList <|
    yearChars date.year ++ padded 2 date.month ++ padded 2 date.day ++
    'T' :: padded 2 (rest / 3600) ++ padded 2 (rest / 60 % 60) ++
    padded 2 (rest % 60 + leap) ++ padded 3 (t.nanos % 1000000000 / 1000000)

/-- Why a text is no point in time. -/
inductive Fault where
  | invalid
  | tooShort
  | tooLong
  | outOfRange
  | incomplete
  deriving DecidableEq, Repr

/-- The words for a fault. -/
def Fault.message : Fault → String
  | .invalid => "input contains invalid characters"
  | .tooShort => "premature end of input"
  | .tooLong => "trailing input"
  | .outOfRange => "input is out of range"
  | .incomplete => "input is not enough for unique date and time"

/-- The number that digits form. -/
def numeral (digits : List Char) : Nat :=
  digits.foldl (fun n c => 10 * n + (c.toNat - '0'.toNat)) 0

/-- A number of one to `width` digits. -/
def number (width : Nat) (cs : List Char) : Except Fault (Nat × List Char) :=
  match cs with
  | [] => .error .tooShort
  | _ =>
    match (cs.take width).takeWhile Char.isDigit with
    | [] => .error .invalid
    | digits => .ok (numeral digits, cs.drop digits.length)

/-- The text after the blanks at its start. -/
def skipBlanks (cs : List Char) : List Char := cs.dropWhile Text.isBlank

/-- A number within bounds, of up to two digits, with blanks before it. -/
def field (least greatest : Nat) (cs : List Char) : Except Fault (Nat × List Char) := do
  let (n, rest) ← number 2 (skipBlanks cs)
  if least ≤ n ∧ n ≤ greatest then return (n, rest) else throw .outOfRange

/-- A year: up to four digits, or any number of them after a sign. -/
def yearField (cs : List Char) : Except Fault (Int × List Char) := do
  let cs := skipBlanks cs
  let (year, rest) ← match cs with
    | '-' :: ds => (number ds.length ds).map fun p => (-(p.1 : Int), p.2)
    | '+' :: ds => (number ds.length ds).map fun p => ((p.1 : Int), p.2)
    | _ => (number 4 cs).map fun p => ((p.1 : Int), p.2)
  if -2147483648 ≤ year ∧ year < 2147483648 then return (year, rest) else throw .outOfRange

/-- The mark between two parts, with blanks before it. -/
def mark (c : Char) (cs : List Char) : Except Fault (List Char) :=
  match skipBlanks cs with
  | [] => .error .tooShort
  | d :: rest => if d = c then .ok rest else .error .invalid

/-- The decimals of a second, of which nine count. -/
def fraction (cs : List Char) : Except Fault (Nat × List Char) :=
  match cs with
  | '.' :: ds => do
    let (n, rest) ← number 9 ds
    let scale := Decimal.tenTo (9 - (ds.length - rest.length))
    return (n * scale, rest.dropWhile Char.isDigit)
  | _ => .ok (0, cs)

/-- Two digits of which the first is at most `top`. -/
def twoDigits (top : Char) : List Char → Except Fault (Nat × List Char)
  | a :: b :: rest =>
    if a.isDigit && b.isDigit then
      if a ≤ top then .ok (numeral [a, b], rest) else .error .outOfRange
    else .error .invalid
  | _ => .error .tooShort

/-- The offset from the zone `Z`, in seconds. -/
def offset (cs : List Char) : Except Fault (Int × List Char) :=
  match cs with
  | [] => .error .tooShort
  | c :: rest =>
    if c = 'Z' || c = 'z' then .ok (0, rest)
    else if (c = 'U' || c = 'u') &&
        (rest.take 2 = ['T', 'C'] || rest.take 2 = ['t', 'c'] || rest.take 2 = ['T', 'c'] ||
          rest.take 2 = ['t', 'C']) then .ok (0, rest.drop 2)
    else if c = '+' || c = '-' || c = '−' then do
      let (hours, rest) ← twoDigits '9' rest
      let rest := rest.dropWhile fun c => c = ':' || Text.isBlank c
      let (minutes, rest) ← twoDigits '5' rest
      let seconds : Int := (hours * 3600 + minutes * 60 : Nat)
      return (if c = '+' then seconds else -seconds, rest)
    else .error .invalid

/-- The point in time that a text denotes. -/
def read (s : String) : Except Fault Timestamp := do
  let (year, cs) ← yearField s.toList
  let cs ← mark '-' cs
  let (month, cs) ← field 1 12 cs
  let cs ← mark '-' cs
  let (day, cs) ← field 1 31 cs
  let cs ← match cs with
    | [] => throw .incomplete
    | c :: rest => if c = 'T' || c = 't' || c = ' ' then pure rest else throw .invalid
  let (hour, cs) ← field 0 23 cs
  let cs ← mark ':' cs
  let (minute, cs) ← field 0 59 cs
  let cs ← mark ':' cs
  let (second, cs) ← field 0 60 cs
  let (nanos, cs) ← fraction cs
  let cs := skipBlanks cs
  if cs.isEmpty then throw .incomplete
  let (offset, cs) ← offset cs
  unless (skipBlanks cs).isEmpty do throw .tooLong
  let date : Date := ⟨year, month, day⟩
  unless date.isValid && Date.inRange year do throw .outOfRange
  unless -86400 < offset ∧ offset < 86400 do throw .outOfRange
  let within : Nat := hour * 3600 + minute * 60 + min second 59
  let leap := if second = 60 then 1000000000 else 0
  return ⟨date.toDays * 86400 + within - offset, nanos + leap⟩

end Timestamp
end Stepwise

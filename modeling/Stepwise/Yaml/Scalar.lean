/-
# What a scalar means

A plain scalar without a tag is null, true or false, a whole number, a number with a
point or an exponent, or else a text. A tag of the common ones demands one of these.

Key definitions: `Yaml.plainValue?`, `Yaml.TagMeaning`, `Yaml.scalarValue?`.
-/
import Stepwise.Json.Basic
import Stepwise.Yaml.Cursor
import Stepwise.Yaml.Token

namespace Stepwise
namespace Yaml

/-- Whether a text is one of the words for null. -/
def isNull (s : String) : Bool := s = "~" || s = "null" || s = "Null" || s = "NULL"

/-- The truth value that a text is. -/
def bool? (s : String) : Option Bool :=
  if s = "true" || s = "True" || s = "TRUE" then some true
  else if s = "false" || s = "False" || s = "FALSE" then some false
  else none

/-- A text without a sign in front. -/
def unsigned : List Char → List Char
  | '+' :: cs => cs
  | '-' :: cs => cs
  | cs => cs

/-- Whether a text is a row of digits that begins with a zero and is no number. -/
def isCode (cs : List Char) : Bool :=
  match unsigned cs with
  | '0' :: d :: rest => (d :: rest).all Char.isDigit
  | _ => false

/-- The number that digits in a base form. -/
def digits? (base : Nat) (cs : List Char) : Option Nat :=
  if cs.isEmpty then none
  else
    cs.foldlM (fun n c => (hexDigit? c).bind fun d =>
      if d < base then some (base * n + d) else none) 0

/-- The natural number that a text without a sign is, in base ten or in one that its
first two characters tell. -/
def natural? : List Char → Option Nat
  | '0' :: 'x' :: cs => digits? 16 cs
  | '0' :: 'o' :: cs => digits? 8 cs
  | '0' :: 'b' :: cs => digits? 2 cs
  | cs => if isCode cs then none else digits? 10 cs

/-- The whole number that a text is. -/
def whole? : List Char → Option Int
  | '-' :: cs => (natural? cs).map fun n => -(n : Int)
  | '+' :: cs => (natural? cs).map Int.ofNat
  | cs => (natural? cs).map Int.ofNat

/-- The exponent of a number, zero if there is none. -/
def exponent? : List Char → Option Int
  | [] => some 0
  | mark :: cs =>
    if mark = 'e' || mark = 'E' then
      match cs with
      | '-' :: cs => (digits? 10 cs).map fun n => -(n : Int)
      | '+' :: cs => (digits? 10 cs).map Int.ofNat
      | cs => (digits? 10 cs).map Int.ofNat
    else none

/-- The double nearest to `significand * 10 ^ e`, if it is finite. -/
def nearest? (negative : Bool) (significand : Nat) (e : Int) : Option Double :=
  let size : Int := (Nat.toDigits 10 significand).length + e
  let d :=
    if significand = 0 || size < -400 then Double.ofSign negative 0
    else if 400 < size then Double.ofSign negative Double.infinityBits
    else if 0 ≤ e then Double.ofRatio negative (significand * Decimal.tenTo e.toNat) 1
    else Double.ofRatio negative significand (Decimal.tenTo (-e).toNat)
  if d.isFinite then some d else none

/-- The number that a text with a point or an exponent is. -/
def decimal? (negative : Bool) (cs : List Char) : Option Double :=
  let whole := cs.takeWhile Char.isDigit
  let rest := cs.dropWhile Char.isDigit
  let (fraction, rest) := match rest with
    | '.' :: rest => (rest.takeWhile Char.isDigit, rest.dropWhile Char.isDigit)
    | rest => ([], rest)
  (digits? 10 (whole ++ fraction)).bind fun significand =>
    (exponent? rest).bind fun e => nearest? negative significand (e - fraction.length)

/-- Whether a text is one of the words for a number that is not finite. -/
def isNotFinite (s : String) : Bool :=
  let infinity (t : String) : Bool := t = ".inf" || t = ".Inf" || t = ".INF"
  infinity s || s = ".nan" || s = ".NaN" || s = ".NAN" ||
    match s.toList with
    | '+' :: cs => infinity (String.ofList cs)
    | '-' :: cs => infinity (String.ofList cs)
    | _ => false

/-- The number that a text is, as a double. One that is not finite is null. -/
def float? (s : String) : Option Json :=
  if isNotFinite s then some .null
  else
    let d := match s.toList with
      | '-' :: cs => decimal? true cs
      | '+' :: cs => decimal? false cs
      | cs => decimal? false cs
    d.map fun d => .num (.float d)

/-- The number `i`, if it is in the range of whole numbers. -/
def inRange? (i : Int) : Option Json :=
  if (Json.Number.int i).InRange then some (.num (.int i)) else none

/-- Whether a whole number fits 128 bits, with a sign bit only if it is negative. -/
def fits (i : Int) : Bool := 
  -170141183460469231731687303715884105728 ≤ i &&
    i < 340282366920938463463374607431768211456

/-- The value of a plain scalar. A whole number that is out of range is refused, and
one that does not even fit 128 bits is a double. -/
def plainValue? (s : String) : Option Json :=
  if s.isEmpty || isNull s then some .null
  else
    match bool? s with
    | some b => some (.bool b)
    | none =>
      match (whole? s.toList).filter fits with
      | some i => inRange? i
      | none => some (if isCode s.toList then .str s else (float? s).getD (.str s))

/-- What a tag demands. -/
inductive TagMeaning where
  | null
  | bool
  | int
  | float
  /-- A tag of the document's own, which no value has. -/
  | ownTag
  /-- The same, but its bytes are no text. -/
  | unreadable
  /-- Any other. -/
  | other
  deriving DecidableEq, Repr

/-- The meaning of a tag. -/
def TagMeaning.ofTag (t : Tag) : TagMeaning :=
  match t with
  | 0x21 :: rest =>
    if (String.fromUTF8? ⟨rest.toArray⟩).isSome then .ownTag else .unreadable
  | _ =>
    let common (word : String) : Bool := t = bytesOf ("tag:yaml.org,2002:" ++ word).toList
    if common "null" then .null
    else if common "bool" then .bool
    else if common "int" then .int
    else if common "float" then .float
    else .other

/-- Whether a tag is the document's own. -/
def isOwnTag (t : Option Tag) : Bool := t.any fun t => TagMeaning.ofTag t = .ownTag

/-- The value of a scalar with its tag. -/
def scalarValue? (tag : Option Tag) (plain : Bool) (s : String) : Option Json :=
  match tag.map TagMeaning.ofTag with
  | none => if plain then plainValue? s else some (.str s)
  | some .null => if isNull s then some .null else none
  | some .bool => (bool? s).map .bool
  | some .int => ((whole? s.toList).filter fits).bind inRange?
  | some .float => float? s
  | some .ownTag => none
  | some .unreadable => if plain then plainValue? s else some (.str s)
  | some .other => some (.str s)

end Yaml
end Stepwise

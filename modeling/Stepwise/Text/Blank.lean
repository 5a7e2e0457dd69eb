/-
# Blank characters

A character is blank when it has the property White_Space. Names, placeholders,
settings and script output are compared and stored with the blanks at both ends
cut off.

Key definitions: `Text.isBlank`, `Text.trim`, `Text.allBlank`.
-/
namespace Stepwise
namespace Text

/-- The characters with the property White_Space. -/
def isBlank (c : Char) : Bool :=
  let n := c.toNat
  (0x09 ≤ n && n ≤ 0x0D) || n == 0x20 || n == 0x85 || n == 0xA0 || n == 0x1680
    || (0x2000 ≤ n && n ≤ 0x200A) || n == 0x2028 || n == 0x2029 || n == 0x202F
    || n == 0x205F || n == 0x3000

/-- `cs` without the characters of `p` at its two ends. -/
def stripBy (p : Char → Bool) (cs : List Char) : List Char :=
  ((cs.dropWhile p).reverse.dropWhile p).reverse

/-- `cs` without the blanks at its two ends. -/
def strip (cs : List Char) : List Char := stripBy isBlank cs

/-- `s` without the blanks at its two ends. -/
def trim (s : String) : String := String.ofList (strip s.toList)

/-- Whether `s` has no character other than blanks. -/
def allBlank (s : String) : Bool := s.toList.all isBlank

end Text
end Stepwise

/-
# Places in a YAML text

A cursor is what is left of a text, with the place reached. Five characters break a
line, a carriage return and a line feed together counting once; blanks are spaces and
tabs. The classes of characters that the format knows are defined here too.

Key definitions: `Yaml.Cursor`, `Yaml.Cursor.takeBreak`, `Yaml.Cursor.takeWhile`,
`Yaml.isPrintable`.
-/
namespace Stepwise
namespace Yaml

/-- The characters a text may hold. -/
def isPrintable (c : Char) : Bool :=
  let n := c.toNat
  n == 0x09 || n == 0x0A || n == 0x0D || (0x20 ≤ n && n ≤ 0x7E) || n == 0x85 ||
    (0xA0 ≤ n && n ≤ 0xFFFD) || 0x10000 ≤ n

/-- A space or a tab. -/
def isBlank (c : Char) : Bool := c = ' ' || c = '\t'

/-- A character that ends a line. -/
def isBreak (c : Char) : Bool :=
  c = '\n' || c = '\r' || c = '\u0085' || c = '\u2028' || c = '\u2029'

/-- A blank or a break. -/
def isGap (c : Char) : Bool := isBlank c || isBreak c

/-- The characters of names: letters, digits, `-` and `_`. -/
def isNameChar (c : Char) : Bool := c.isAlphanum || c = '-' || c = '_'

/-- The characters that have a meaning inside of brackets. -/
def isFlowMark (c : Char) : Bool :=
  c = ',' || c = '[' || c = ']' || c = '{' || c = '}'

/-- The value of a hexadecimal digit. -/
def hexDigit? (c : Char) : Option Nat :=
  if c.isDigit then some (c.toNat - '0'.toNat)
  else if 'a' ≤ c ∧ c ≤ 'f' then some (c.toNat - 'a'.toNat + 10)
  else if 'A' ≤ c ∧ c ≤ 'F' then some (c.toNat - 'A'.toNat + 10)
  else none

/-- The number that hexadecimal digits form. -/
def hexNumber? : List Char → Option Nat :=
  List.foldlM (fun n c => (hexDigit? c).map (16 * n + ·)) 0

/-- What is left of a text, and the place reached, counted from zero. -/
structure Cursor where
  rest : List Char
  index : Nat
  line : Nat
  column : Nat
  deriving Repr

namespace Cursor

/-- The beginning of a text. -/
def start (text : List Char) : Cursor := ⟨text, 0, 0, 0⟩

/-- The character `k` places further on. -/
def peek? (c : Cursor) (k : Nat) : Option Char := c.rest[k]?

/-- Whether `x` stands here. -/
def sees (c : Cursor) (x : Char) : Bool := c.rest.head? = some x

/-- Whether the character here is of the class `p`. -/
def seesClass (c : Cursor) (p : Char → Bool) : Bool := c.rest.head?.any p

/-- Whether the text ends here. -/
def atEnd (c : Cursor) : Bool := c.rest.isEmpty

/-- Whether a blank, a break or the end comes `k` places further on. -/
def gapAt (c : Cursor) (k : Nat) : Bool := (c.peek? k).all isGap

/-- Whether a break or the end comes here. -/
def lineEnds (c : Cursor) : Bool := c.rest.head?.all isBreak

/-- The cursor after `n` characters of the same line. -/
def skip (c : Cursor) (n : Nat) : Cursor :=
  ⟨c.rest.drop n, c.index + n, c.line, c.column + n⟩

/-- The break here and the cursor after it. All breaks but the two separators of
Unicode are read as line feeds. Where no break stands, nothing is read. -/
def takeBreak (c : Cursor) : List Char × Cursor :=
  match c.rest with
  | '\r' :: '\n' :: rest => (['\n'], ⟨rest, c.index + 2, c.line + 1, 0⟩)
  | x :: rest =>
    if isBreak x then
      ([if x = '\u2028' || x = '\u2029' then x else '\n'],
        ⟨rest, c.index + 1, c.line + 1, 0⟩)
    else ([], c)
  | [] => ([], c)

/-- The longest run of characters of a class, which holds no break, and the cursor
after it. -/
def takeWhile (c : Cursor) (p : Char → Bool) : List Char × Cursor :=
  let taken := c.rest.takeWhile p
  (taken, c.skip taken.length)

/-- The cursor after a run of characters. -/
def skipWhile (c : Cursor) (p : Char → Bool) : Cursor := (c.takeWhile p).2

/-- The cursor after a comment, if one begins here. -/
def skipComment (c : Cursor) : Cursor :=
  if c.sees '#' then c.skipWhile fun x => !isBreak x else c

/-- The cursor after the rest of a line that holds at most a comment. -/
def finishLine? (c : Cursor) : Option Cursor :=
  let c := (c.skipWhile isBlank).skipComment
  if c.lineEnds then some c.takeBreak.2 else none

/-- Whether the line begins with this mark of three characters, set off by a gap. -/
def atMark (c : Cursor) (x : Char) : Bool :=
  c.column = 0 && c.rest.take 3 = [x, x, x] && c.gapAt 3

/-- Whether a document begins or ends here. -/
def atDocumentMark (c : Cursor) : Bool := c.atMark '-' || c.atMark '.'

end Cursor
end Yaml
end Stepwise

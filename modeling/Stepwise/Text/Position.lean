/-
# Places in a text

A place is the number of the line, from one, and the number of bytes of that line
before the place.

Key definitions: `Text.Position`, `Text.Position.advance`, `Text.Position.enter`.
-/
namespace Stepwise
namespace Text

/-- A place in a text. -/
structure Position where
  /-- The line, from one. -/
  line : Nat
  /-- The bytes of the line before the place. -/
  column : Nat
  deriving DecidableEq, Repr

namespace Position

/-- The beginning of a text. -/
def start : Position := ⟨1, 0⟩

/-- The place `n` bytes further on in the same line. -/
def forward (p : Position) (n : Nat) : Position := { p with column := p.column + n }

/-- The place after `c`. -/
def advance (p : Position) (c : Char) : Position :=
  if c = '\n' then ⟨p.line + 1, 0⟩ else p.forward c.utf8Size

/-- The place after the first byte of `c`. -/
def enter (p : Position) (c : Char) : Position :=
  if c = '\n' then ⟨p.line + 1, 0⟩ else p.forward 1

end Position
end Text
end Stepwise

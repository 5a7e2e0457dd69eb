/-
# Literal and folded scalars

A literal scalar is made of the lines that are indented under its mark, as they are. In
a folded one, a break between two lines that begin with no blank becomes a space, and
where lines are left out between them only their breaks are kept. A sign after the mark
tells whether the breaks at the end are kept, all dropped, or all but one; a digit sets
the indentation.

Key definitions: `Yaml.Chomping`, `Yaml.Cursor.takeBlock?`.
-/
import Stepwise.Yaml.Cursor

namespace Stepwise
namespace Yaml

/-- What becomes of the breaks at the end of a scalar. -/
inductive Chomping where
  /-- The first one stays. -/
  | clip
  /-- None stays. -/
  | strip
  /-- All stay. -/
  | keep
  deriving DecidableEq, Repr

namespace Cursor

/-- The sign after the mark of a scalar. -/
def takeChomping? (c : Cursor) : Option (Chomping × Cursor) :=
  if c.sees '+' then some (.keep, c.skip 1)
  else if c.sees '-' then some (.strip, c.skip 1)
  else none

/-- The digit after the mark of a scalar, zero if there is none; it cannot be zero. -/
def takeIncrement? (c : Cursor) : Option (Nat × Cursor) :=
  match c.rest.head? with
  | none => some (0, c)
  | some x =>
    if x = '0' then none
    else if x.isDigit then some (x.toNat - '0'.toNat, c.skip 1)
    else some (0, c)

/-- The sign and the digit after the mark of a scalar, in either order. -/
def takeHeader? (c : Cursor) : Option (Chomping × Nat × Cursor) :=
  match c.takeChomping? with
  | some (chomping, c) => c.takeIncrement?.map fun (n, c) => (chomping, n, c)
  | none =>
    c.takeIncrement?.map fun (n, c) =>
      if n = 0 then (.clip, 0, c)
      else
        match c.takeChomping? with
        | some (chomping, c) => (chomping, n, c)
        | none => (.clip, n, c)

/-- The empty lines here, with the indentation of the line after them, up to the column
`indent` if it is known. The answer holds their breaks and the rightmost column. -/
def takeEmptyLines? (indent : Nat) :
    Nat → Cursor → Nat → List Char → Option (List Char × Nat × Cursor)
  | 0, c, deepest, acc => some (acc.reverse, deepest, c)
  | n + 1, c, deepest, acc =>
    let spaces := (c.rest.takeWhile (· = ' ')).length
    let c := c.skip (if indent = 0 then spaces else min spaces (indent - c.column))
    let deepest := max deepest c.column
    if c.sees '\t' && (indent = 0 || c.column < indent) then none
    else if c.seesClass isBreak then
      let (b, c) := c.takeBreak
      takeEmptyLines? indent n c deepest (b ++ acc)
    else some (acc.reverse, deepest, c)

/-- What stands between two lines of a scalar: the break that ends the first, and the
breaks of the empty lines. -/
def glue (folded firstBlank nextBlank : Bool) (first more : List Char) : List Char :=
  if folded && first = ['\n'] && !firstBlank && !nextBlank then
    if more.isEmpty then [' '] else more
  else first ++ more

/-- The lines of a scalar, after what is read of it, the break that ended the last line,
the breaks after it, and whether that line began with a blank. -/
def takeLines? (folded : Bool) (chomping : Chomping) (indent : Nat) :
    Nat → Cursor → (first more : List Char) → Bool → List Char →
      Option (List Char × Cursor)
  | 0, _, _, _, _, _ => none
  | n + 1, c, first, more, firstBlank, acc =>
    if c.column = indent && !c.atEnd then
      let nextBlank := c.seesClass isBlank
      let acc := (glue folded firstBlank nextBlank first more).reverse ++ acc
      let (line, c) := c.takeWhile fun x => !isBreak x
      let (first, c) := c.takeBreak
      (takeEmptyLines? indent (c.rest.length + 1) c 0 []).bind fun (more, _, c) =>
        takeLines? folded chomping indent n c first more nextBlank (line.reverse ++ acc)
    else
      some (match chomping with
        | .strip => (acc, c)
        | .clip => (first.reverse ++ acc, c)
        | .keep => (more.reverse ++ (first.reverse ++ acc), c))

/-- The literal or folded scalar here. `outer` is the column of what it stands in, from
one, or zero if it stands in nothing. -/
def takeBlock? (folded : Bool) (outer : Nat) (c : Cursor) : Option (String × Cursor) := do
  let (chomping, increment, c) ← (c.skip 1).takeHeader?
  let c ← c.finishLine?
  let known := if increment = 0 then 0 else outer - 1 + increment
  let (more, deepest, c) ← takeEmptyLines? known (c.rest.length + 1) c 0 []
  let indent := if known = 0 then max deepest (max outer 1) else known
  let (text, c) ← takeLines? folded chomping indent (c.rest.length + 1) c [] more false []
  pure (String.ofList text.reverse, c)

end Cursor
end Yaml
end Stepwise

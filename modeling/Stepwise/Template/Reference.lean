/-
# References

A reference names a step, or the configuration, and leads from there to a part of
its value: `step.items[0].name` has the segments `step`, `items`, `0` and `name`.
Segments are parted by points; one in brackets may hold points itself and may be
quoted. Empty segments between points do not count. A reference with an empty segment
in brackets, or with no segment, denotes nothing.

Key definitions: `Reference.segments?`, `Reference.bracketed?`.
-/
import Stepwise.Text.Blank

namespace Stepwise
namespace Reference

/-- A quote of either sort. -/
def isQuote (c : Char) : Bool := c = '"' || c = '\''

/-- The segment between brackets, without blanks and then without quotes around it. -/
def bracketed? (inner : List Char) : Option String :=
  match Text.stripBy isQuote (Text.strip inner) with
  | [] => none
  | cs => some (String.ofList cs)

/-- A finished segment between points in front of the others, unless it is empty. The
characters of the segment stand in reverse. -/
def withPlain (current : List Char) (rest : List String) : List String :=
  match current with
  | [] => rest
  | cs => String.ofList cs.reverse :: rest

mutual

/-- The segments from here on, outside brackets. `current` is the segment so far, in
reverse. -/
def plainFrom (current : List Char) : List Char → Option (List String)
  | [] => some (withPlain current [])
  | c :: cs =>
    if c = '.' then (plainFrom [] cs).map (withPlain current)
    else if c = '[' then (bracketFrom [] cs).map (withPlain current)
    else plainFrom (c :: current) cs

/-- The segments from here on, inside brackets; the end of the text closes them. -/
def bracketFrom (inner : List Char) : List Char → Option (List String)
  | [] => (bracketed? inner.reverse).map ([·])
  | c :: cs =>
    if c = ']' then
      (bracketed? inner.reverse).bind fun s => (plainFrom [] cs).map (s :: ·)
    else bracketFrom (c :: inner) cs

end

/-- The segments of a reference, of which there is at least one. -/
def segments? (expression : String) : Option (List String) :=
  match plainFrom [] (Text.strip expression.toList) with
  | some (s :: rest) => some (s :: rest)
  | _ => none

end Reference
end Stepwise

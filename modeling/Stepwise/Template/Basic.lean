/-
# Templates

A template is a text with placeholders: `${` opens one and the next closing brace
ends it. A text reads in exactly one way as texts and placeholders in turn; an opening
that is never closed is text, and so is everything after it.

Key definitions: `Template`, `Template.ofText`, `Template.text`,
`Template.references`, `Template.whole?`.
-/
import Stepwise.Text.Blank

namespace Stepwise

/-- A text cut at its placeholders. -/
structure Template where
  /-- Each placeholder's expression, with the text before it. -/
  parts : List (List Char × List Char)
  /-- The text after the last placeholder. -/
  rest : List Char
  deriving DecidableEq, Repr

namespace Template

/-- Whether a text holds the opening of a placeholder. -/
def hasOpening : List Char → Bool
  | [] => false
  | '$' :: '{' :: _ => true
  | _ :: cs => hasOpening cs

/-- One more text and placeholder in front. -/
def cons (literal expression : List Char) (t : Template) : Template :=
  { t with parts := (literal, expression) :: t.parts }

mutual

/-- The template from here on, outside placeholders. `literal` is the text so far, in
reverse. -/
def textFrom (literal : List Char) : List Char → Template
  | [] => ⟨[], literal.reverse⟩
  | '$' :: '{' :: cs => placeholderFrom literal [] cs
  | c :: cs => textFrom (c :: literal) cs

/-- The template from here on, inside a placeholder whose expression so far stands in
reverse. -/
def placeholderFrom (literal expression : List Char) : List Char → Template
  | [] => ⟨[], literal.reverse ++ '$' :: '{' :: expression.reverse⟩
  | c :: cs =>
    if c = '}' then (textFrom [] cs).cons literal.reverse expression.reverse
    else placeholderFrom literal (c :: expression) cs

end

/-- The template that a text is. -/
def ofText (s : String) : Template := textFrom [] s.toList

/-- The text that a template is. -/
def text (t : Template) : List Char :=
  t.parts.flatMap (fun p => p.1 ++ '$' :: '{' :: p.2 ++ ['}']) ++ t.rest

/-- The expression of a template that is a single placeholder with no text around it.
An expression that holds another opening does not count. -/
def whole? (t : Template) : Option (List Char) :=
  match t with
  | ⟨[([], expression)], []⟩ => if hasOpening expression then none else some expression
  | _ => none

/-- An expression as it is looked up. -/
def lookedUp (expression : List Char) : String := String.ofList (Text.strip expression)

/-- The expressions of the placeholders that are not blank, in order. -/
def references (t : Template) : List String :=
  (t.parts.map fun p => lookedUp p.2).filter (· ≠ "")

end Template
end Stepwise

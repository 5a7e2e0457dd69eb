/-
# Resolving templates

A view is what a step can refer to: the trace as seen from the step's path, and the
configuration of the job. Resolving a value replaces the placeholders in all its
strings. A string that is a single placeholder becomes the value referred to; in any
other string the values are written into the text. What cannot be found is null. What
comes out of a placeholder is never looked at again.

Key definitions: `View`, `View.lookup?`, `View.resolveText`, `View.resolve`.
-/
import Stepwise.Json.Printer
import Stepwise.Template.Basic
import Stepwise.Template.Reference
import Stepwise.Trace.Written

namespace Stepwise

/-- What a step can refer to. -/
structure View where
  trace : Trace
  /-- Where the step stands. -/
  path : Path
  configs : Named Json

/-- The name that stands for the configuration in references. -/
def configsRoot : String := "configs"

namespace View

/-- The value that segments refer to. -/
def find? (view : View) : List String → Option Json
  | [] => none
  | root :: rest =>
    if root = configsRoot then
      match rest with
      | [] => none
      | key :: rest => (Named.get? view.configs key).bind (·.at? rest)
    else (Trace.get? view.trace view.path root).bind (·.part? rest)

/-- The value that an expression refers to. -/
def lookup? (view : View) (expression : String) : Option Json :=
  (Reference.segments? expression).bind view.find?

/-- The value of a placeholder: null if its expression refers to nothing. -/
def placeholder (view : View) (expression : List Char) : Json :=
  (view.lookup? (Template.lookedUp expression)).getD .null

/-- A value inside a text: a string as it is, anything else as JSON. -/
def embedded : Json → List Char
  | .str s => s.toList
  | v => v.chars

/-- A template with the values of its placeholders. -/
def fill (view : View) (t : Template) : Json :=
  match t.whole? with
  | some expression => view.placeholder expression
  | none =>
    .str <| String.ofList <|
      t.parts.flatMap (fun p => p.1 ++ embedded (view.placeholder p.2)) ++ t.rest

/-- A text with the values of its placeholders. -/
def resolveText (view : View) (s : String) : Json := view.fill (.ofText s)

mutual

/-- A value with all placeholders in its strings resolved. -/
def resolve (view : View) : Json → Json
  | .str s => view.resolveText s
  | .arr items => .arr (resolveList view items)
  | .obj fields => .obj (resolveFields view fields)
  | v => v

/-- The items resolved. -/
def resolveList (view : View) : List Json → List Json
  | [] => []
  | v :: vs => resolve view v :: resolveList view vs

/-- The values of the fields resolved; keys stay as they are. -/
def resolveFields (view : View) : Json.Fields → Json.Fields
  | [] => []
  | (k, v) :: rest => (k, resolve view v) :: resolveFields view rest

end

end View
end Stepwise

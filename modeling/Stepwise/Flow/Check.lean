/-
# Checking flows

Every step needs a name that is not blank, not reserved and not used before it.
References to names that no step has are reported, but they are no fault: they resolve
to null.

Key definitions: `Flow.nameErrors`, `Flow.check`, `Flow.unknownReferences`,
`Flow.build`, `Json.strings`.
-/
import Stepwise.Flow.Build
import Stepwise.Template.Basic
import Stepwise.Template.Reference

namespace Stepwise

/-- The names that references use for something else than a step. -/
def reservedNames : List String := ["trigger", "configs"]

/-- What is wrong with one name by itself. -/
def ownNameErrors (name : String) : List NameError :=
  if Text.allBlank name then [.empty]
  else if reservedNames.contains name then [.reserved name]
  else []

/-- What is wrong with names in order, when those of `seen` came before. -/
def nameErrorsFrom (seen : List String) : List String → List NameError
  | [] => []
  | name :: rest =>
    ownNameErrors name ++
      (if name ≠ "" ∧ name ∈ seen then [.duplicate name] else []) ++
      nameErrorsFrom (name :: seen) rest

namespace Flow

/-- What is wrong with the names of a flow. -/
def nameErrors (f : Flow) : List NameError :=
  nameErrorsFrom [] (f.actions.map (·.label.name))

/-- Refuses a flow with a misused name. -/
def check (f : Flow) : Except FlowError Unit :=
  match f.nameErrors with
  | [] => .ok ()
  | errors => .error (.invalid errors)

/-- The flow of a document. -/
def build (document : Json) : Except FlowError Flow := do
  let flow ← buildUnchecked document
  flow.check
  return flow

end Flow

namespace Json

mutual

/-- The strings in a value, keys aside, in order. -/
def strings : Json → List String
  | .str s => [s]
  | .arr items => stringsList items
  | .obj fields => stringsFields fields
  | _ => []

/-- The strings in the items. -/
def stringsList : List Json → List String
  | [] => []
  | v :: vs => strings v ++ stringsList vs

/-- The strings in the values of the fields. -/
def stringsFields : Fields → List String
  | [] => []
  | (_, v) :: rest => strings v ++ stringsFields rest

end

end Json

namespace Flow

/-- Whether a reference leads to one of the names. -/
def isKnown (names : List String) (reference : String) : Bool :=
  match Reference.segments? reference with
  | some (root :: _) => names.contains root
  | _ => false

/-- The references in an action, in order. -/
def references (a : Action) : List String :=
  a.work.templates.flatMap fun template =>
    template.strings.flatMap fun s => (Template.ofText s).references

/-- Each reference to a name that neither a step nor anything else has, after the name
of the step that holds it. -/
def unknownReferences (f : Flow) : List (String × String) :=
  let known := f.actions.map (·.label.name) ++ reservedNames
  f.actions.flatMap fun a =>
    ((references a).filter fun r => !isKnown known r).map (a.label.name, ·)

end Flow
end Stepwise

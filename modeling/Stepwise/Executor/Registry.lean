/-
# Integrations

An integration is a named group of actions; a registry knows integrations by their
names. An action is looked up by the integration's name first, then by its own, and
each of the two may be unknown.

Key definitions: `Integration`, `Registry`, `Registry.register`, `Registry.find`,
`Integration.actionNames`, `Integration.description`.
-/
import Stepwise.Executor.Error
import Stepwise.Named
import Stepwise.Text.Quoted

namespace Stepwise

/-- A named group of actions of type `α`. -/
structure Integration (α : Type) where
  name : String
  actions : Named α

/-- The integrations that a run can call. -/
abbrev Registry (α : Type) := Named (Integration α)

namespace Integration

variable {α : Type}

/-- The integration with one more action; an action of the same name is replaced. -/
def withAction (i : Integration α) (name : String) (action : α) : Integration α :=
  { i with actions := Named.put name action i.actions }

/-- The names of the actions in increasing order. -/
def actionNames (i : Integration α) : List String :=
  (Named.names i.actions).mergeSort (fun a b => a ≤ b)

/-- The integration as a log shows it. -/
def description (i : Integration α) : String :=
  "Integration \x7b name: " ++ Text.quoted i.name ++ ", actions: [" ++
    String.intercalate ", " (i.actionNames.map Text.quoted) ++ "] \x7d"

end Integration

namespace Registry

variable {α : Type}

/-- The registry with one more integration; one of the same name is replaced. -/
def register (r : Registry α) (i : Integration α) : Registry α := Named.put i.name i r

/-- The action of an integration. -/
def find (r : Registry α) (integration action : String) : Except CallError α :=
  match Named.get? r integration with
  | none => .error (.integrationNotFound integration)
  | some i =>
    match Named.get? i.actions action with
    | none => .error (.actionNotFound integration action)
    | some a => .ok a

end Registry
end Stepwise

/-
# The settings of actions

Each kind of action has settings of its own. They are decoded from the record in the
job document and written back with all their fields.

Key definitions: `CodeSettings`, `IntegrationSettings`, `StorageSettings`,
`ResponseSettings`, `LoopSettings`, `StoreScope`, `StorageOperation`.
-/
import Stepwise.Json.Decode

namespace Stepwise

open Json (Source DecodeError Slots)

/-- Whom a stored value belongs to: every run of a flow version, or one run. -/
inductive StoreScope where
  | flow
  | run
  deriving DecidableEq, Repr

/-- What a storage action does. -/
inductive StorageOperation where
  | get
  | put
  deriving DecidableEq, Repr

/-- Runs an artifact. -/
structure CodeSettings where
  artifact : String
  /-- A template. -/
  input : Json
  deriving DecidableEq

/-- Calls an action of a named integration. -/
structure IntegrationSettings where
  integration : String
  action : String
  /-- A template. -/
  input : Json
  deriving DecidableEq

/-- Reads or writes a stored value. -/
structure StorageSettings where
  operation : StorageOperation
  /-- A template for a string or a number. -/
  key : Json
  /-- A template; writing needs one. -/
  value : Option Json
  scope : StoreScope
  deriving DecidableEq

/-- Answers the caller. -/
structure ResponseSettings where
  /-- A template. -/
  output : Json
  deriving DecidableEq

/-- Runs a chain once for each item of a list. -/
structure LoopSettings where
  /-- A template for a list. -/
  items : Json
  deriving DecidableEq

namespace StoreScope

/-- The word for a scope. -/
def word : StoreScope → String
  | .flow => "Flow"
  | .run => "Run"

/-- The scope that a word stands for. -/
def decode (v : Json) : Except DecodeError StoreScope :=
  Json.decodeEnum [(.flow, ["FLOW", "Flow"]), (.run, ["RUN", "Run"])] v

/-- What precedes the keys of a scope. -/
def keyPrefix (scope : StoreScope) (flowVersionId executionId : String) : String :=
  match scope with
  | .flow => "flows/" ++ flowVersionId ++ "/"
  | .run => "runs/" ++ executionId ++ "/"

/-- The key under which the store knows `key`. -/
def scopedKey (scope : StoreScope) (flowVersionId executionId key : String) : String :=
  scope.keyPrefix flowVersionId executionId ++ key

end StoreScope

namespace StorageOperation

/-- The word for an operation. -/
def word : StorageOperation → String
  | .get => "Get"
  | .put => "Put"

/-- The operation that a word stands for. -/
def decode (v : Json) : Except DecodeError StorageOperation :=
  Json.decodeEnum [(.get, ["GET", "Get"]), (.put, ["PUT", "Put"])] v

end StorageOperation

namespace CodeSettings

/-- The settings as a record. -/
def written (s : CodeSettings) : Json :=
  .obj [("artifact", .str s.artifact), ("input", s.input)]

/-- The settings in a record. -/
def decode (source : Source) (v : Json) : Except DecodeError CodeSettings := do
  let s ← Slots.of source "CodeSettings" ["artifact", "input"] v
  s.finish
    (Json.both (s.required 0 "artifact" Json.decodeString)
      (s.withDefault 1 .null Json.decodeValue))
    fun (artifact, input) => ⟨artifact, input⟩

end CodeSettings

namespace IntegrationSettings

/-- The settings as a record. -/
def written (s : IntegrationSettings) : Json :=
  .obj [("integrationName", .str s.integration), ("actionName", .str s.action),
    ("input", s.input)]

/-- The settings in a record. -/
def decode (source : Source) (v : Json) : Except DecodeError IntegrationSettings := do
  let s ← Slots.of source "IntegrationSettings" ["integrationName", "actionName", "input"] v
  s.finish
    (Json.both (s.required 0 "integrationName" Json.decodeString)
      (Json.both (s.required 1 "actionName" Json.decodeString)
        (s.withDefault 2 .null Json.decodeValue)))
    fun (integration, action, input) => ⟨integration, action, input⟩

end IntegrationSettings

namespace StorageSettings

/-- The settings as a record. -/
def written (s : StorageSettings) : Json :=
  .obj <| ("operation", .str s.operation.word) :: ("key", s.key) ::
    (match s.value with
      | some v => [("value", v)]
      | none => []) ++ [("scope", .str s.scope.word)]

/-- The settings in a record. -/
def decode (source : Source) (v : Json) : Except DecodeError StorageSettings := do
  let s ← Slots.of source "StorageSettings" ["operation", "key", "value", "scope"] v
  s.finish
    (Json.both (s.required 0 "operation" StorageOperation.decode)
      (Json.both (s.required 1 "key" Json.decodeValue)
        (Json.both (s.withDefault 2 none (Json.decodeOption Json.decodeValue))
          (s.withDefault 3 .flow StoreScope.decode))))
    fun (operation, key, value, scope) => ⟨operation, key, value, scope⟩

end StorageSettings

namespace ResponseSettings

/-- The settings as a record. -/
def written (s : ResponseSettings) : Json := .obj [("output", s.output)]

/-- The settings in a record. -/
def decode (source : Source) (v : Json) : Except DecodeError ResponseSettings := do
  let s ← Slots.of source "ResponseSettings" ["output"] v
  s.finish (s.required 0 "output" Json.decodeValue) fun output => ⟨output⟩

end ResponseSettings

namespace LoopSettings

/-- The settings as a record. -/
def written (s : LoopSettings) : Json := .obj [("items", s.items)]

/-- The settings in a record. -/
def decode (source : Source) (v : Json) : Except DecodeError LoopSettings := do
  let s ← Slots.of source "LoopSettings" ["items"] v
  s.finish (s.required 0 "items" Json.decodeValue) fun items => ⟨items⟩

end LoopSettings

end Stepwise

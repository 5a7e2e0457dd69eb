/-
# Steps

A step resolves its templates against what it can refer to, makes at most one call and
ends with one result. The result records the resolved settings, whether or not the call
succeeds.

Key definitions: `Scene`, `storageKey?`, `Task.perform`.
-/
import Stepwise.Flow.Basic
import Stepwise.Run.Process
import Stepwise.Template.Resolve

namespace Stepwise

/-- What stays the same during a run. -/
structure Scene where
  executionId : String
  flowVersionId : String
  configs : Named Json

/-- What a step at a path can refer to. -/
def Scene.view (scene : Scene) (path : Path) (trace : Trace) : View :=
  ⟨trace, path, scene.configs⟩

/-- A result that a reply gives. -/
def StepResult.ofReply (input : Json) : Reply → StepResult
  | .ok v => .succeed input (v.getD .null)
  | .error e => .fail input e.message

/-- The key that a resolved value stands for: a number, or a string that is not blank. -/
def storageKey? : Json → Except String String
  | .str s => if Text.allBlank s then .error "storage key must not be empty" else .ok s
  | .num n => .ok n.text
  | v => .error ("storage key must resolve to a string or number, got " ++ v.compact)

/-- One call, whose reply is the result. -/
def Call.perform (c : Call) (input : Json) : Process StepResult :=
  .call c fun r => .done (.ofReply input r)

namespace Task

/-- Runs an artifact on the resolved input. -/
def performCode (view : View) (s : CodeSettings) : Process StepResult :=
  let input := view.resolve s.input
  (Call.code s.artifact input).perform (.obj [("artifact", .str s.artifact), ("input", input)])

/-- Runs an action of an integration on the resolved input. -/
def performIntegration (view : View) (s : IntegrationSettings) : Process StepResult :=
  let input := view.resolve s.input
  (Call.integration s.integration s.action input).perform
    (.obj [("actionName", .str s.action), ("input", input),
      ("integrationName", .str s.integration)])

/-- Reads or writes the store under a resolved key. -/
def storageAct (scene : Scene) (s : StorageSettings) (key : Json) (value : Option Json) :
    Process StepResult :=
  let input := .obj <|
    [("key", key), ("operation", .str s.operation.word), ("scope", .str s.scope.word)] ++
      value.toList.map ("value", ·)
  match storageKey? key with
  | .error message => .done (.fail input message)
  | .ok key =>
    let storeKey := s.scope.scopedKey scene.flowVersionId scene.executionId key
    match s.operation with
    | .get => (Call.get storeKey).perform input
    | .put => (Call.put storeKey (value.getD .null)).perform input

/-- Without a key of use there is no call, and with one it is the call of the operation. -/
theorem storageAct_cases (scene : Scene) (s : StorageSettings) (key : Json)
    (value : Option Json) :
    let input := .obj <|
      [("key", key), ("operation", .str s.operation.word), ("scope", .str s.scope.word)] ++
        value.toList.map ("value", ·)
    (∃ message, storageKey? key = .error message ∧
        storageAct scene s key value = .done (.fail input message)) ∨
      ∃ k, storageKey? key = .ok k ∧
        let storeKey := s.scope.scopedKey scene.flowVersionId scene.executionId k
        (s.operation = .get ∧ storageAct scene s key value = (Call.get storeKey).perform input) ∨
          (s.operation = .put ∧
            storageAct scene s key value =
              (Call.put storeKey (value.getD .null)).perform input) := by
  unfold storageAct
  cases storageKey? key with
  | error message => exact .inl ⟨message, rfl, rfl⟩
  | ok k =>
    cases s.operation with
    | get => exact .inr ⟨k, rfl, .inl ⟨rfl, rfl⟩⟩
    | put => exact .inr ⟨k, rfl, .inr ⟨rfl, rfl⟩⟩

/-- Reads or writes the store, once the key and the value are resolved. -/
def performStorage (scene : Scene) (view : View) (s : StorageSettings) : Process StepResult :=
  storageAct scene s (view.resolve s.key) (s.value.map view.resolve)

/-- Answers with the resolved output. -/
def performResponse (view : View) (s : ResponseSettings) : Process StepResult :=
  let output := view.resolve s.output
  .done (.succeed (.obj [("output", output)]) output)

/-- What a step does that is no loop. -/
def perform (scene : Scene) (view : View) : Task → Process StepResult
  | .code s => performCode view s
  | .integration s => performIntegration view s
  | .storage s => performStorage scene view s
  | .response s => performResponse view s

end Task
end Stepwise

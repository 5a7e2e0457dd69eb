/-
# What a step records

A task makes at most one call, and its record says which: the call can be read off the
recorded input alone, with the identifiers of the run for the keys of the store. The rest
of the record is what the call answered. Only a task that answers the caller, or a task on
the store whose recorded key is of no use, makes no call: what any other task records can be
read as a call. In every record a message stands exactly if the step failed.

Key definitions: `Task.recordedCall?`, `Task.TellsCall`, `Task.Recorded`,
`StepResult.Explained`.
Key theorems: `Task.recorded_of_yields`, `Task.Recorded.tellsCall`.
-/
import Stepwise.Proofs.Run.Calls
import Stepwise.Run.Step

namespace Stepwise

/-- The string in a field of a record. -/
def Json.text? (v : Json) (field : String) : Option String := (v.get? field).bind Json.string?

/-- The key in a record: a number, or a string that is not blank. -/
def Json.recordedKey? : Json → Option String
  | .str s => if Text.allBlank s then none else some s
  | .num n => some n.text
  | _ => none

/-- A value that is of use as a key: a number, or a string that is not blank. -/
inductive Json.IsKey : Json → Prop where
  | number (n : Number) : IsKey (.num n)
  | string {s : String} (h : Text.allBlank s = false) : IsKey (.str s)

theorem Json.isSome_recordedKey?_iff {key : Json} :
    key.recordedKey?.isSome = true ↔ key.IsKey := by
  constructor
  · intro h
    cases key with
    | num n => exact .number n
    | str s =>
      cases hblank : Text.allBlank s with
      | false => exact .string hblank
      | true => simp [recordedKey?, hblank] at h
    | _ => contradiction
  · intro h
    cases h with
    | number n => rfl
    | string hblank => simp [recordedKey?, hblank]

/-- The scope that a word in a record stands for. -/
def StoreScope.ofWord? (word : String) : Option StoreScope :=
  if word = "Flow" then some .flow else if word = "Run" then some .run else none

/-- The operation that a word in a record stands for. -/
def StorageOperation.ofWord? (word : String) : Option StorageOperation :=
  if word = "Get" then some .get else if word = "Put" then some .put else none

namespace StepResult

/-- The record gives a message exactly if the step failed. -/
def Explained (r : StepResult) : Prop := r.isFailed = true ↔ r.message.isSome = true

theorem explained_succeed (input output : Json) : (succeed input output).Explained := by
  simp [Explained, succeed, isFailed]

theorem explained_fail (input : Json) (message : String) : (fail input message).Explained := by
  simp [Explained, fail, isFailed]

theorem explained_ofReply (input : Json) (reply : Reply) : (ofReply input reply).Explained := by
  cases reply with
  | ok v => exact explained_succeed ..
  | error e => exact explained_fail ..

@[simp] theorem isFailed_ofLoop (input : Json) (summary : LoopSummary StepResult)
    (failure : Option String) : (ofLoop input summary failure).isFailed = failure.isSome := by
  cases failure <;> rfl

@[simp] theorem message_ofLoop (input : Json) (summary : LoopSummary StepResult)
    (failure : Option String) : (ofLoop input summary failure).message = failure := by
  cases failure <;> rfl

theorem explained_ofLoop (input : Json) (summary : LoopSummary StepResult)
    (failure : Option String) : (ofLoop input summary failure).Explained := by
  rw [Explained, isFailed_ofLoop, message_ofLoop]

@[simp] theorem loop?_succeed (input output : Json) : (succeed input output).loop? = none := rfl

@[simp] theorem loop?_fail (input : Json) (message : String) :
    (fail input message).loop? = none := rfl

@[simp] theorem loop?_ofReply (input : Json) (reply : Reply) :
    (ofReply input reply).loop? = none := by cases reply <;> rfl

@[simp] theorem input_fail (input : Json) (message : String) :
    (fail input message).input = input := rfl

@[simp] theorem input_ofReply (input : Json) (reply : Reply) :
    (ofReply input reply).input = input := by cases reply <;> rfl

end StepResult

namespace Task

/-- The call that a task with this recorded input has made, if it has made one. -/
def recordedCall? (scene : Scene) (input : Json) : Task → Option Call
  | .code _ => do return .code (← input.text? "artifact") (← input.get? "input")
  | .integration _ => do
    return .integration (← input.text? "integrationName") (← input.text? "actionName")
      (← input.get? "input")
  | .storage _ => do
    let key ← (input.get? "key").bind Json.recordedKey?
    let scope ← (input.text? "scope").bind StoreScope.ofWord?
    let storeKey := scope.scopedKey scene.flowVersionId scene.executionId key
    match ← (input.text? "operation").bind StorageOperation.ofWord? with
    | .get => return .get storeKey
    | .put => return .put storeKey ((input.get? "value").getD .null)
  | .response _ => none

/-- The recorded input of a task tells whether the task has made a call. Code and
integrations have; a task on the store has recorded its key, and has made a call exactly if
that is of use; an answer is none. -/
def TellsCall (scene : Scene) (input : Json) (task : Task) : Prop :=
  match task with
  | .code _ | .integration _ => (task.recordedCall? scene input).isSome = true
  | .storage _ => ∃ key, input.get? "key" = some key ∧
    ((task.recordedCall? scene input).isSome = true ↔ key.IsKey)
  | .response _ => task.recordedCall? scene input = none

/-- The calls and the record that a task can leave. -/
inductive Recorded (scene : Scene) : Task → List (Call × Reply) → StepResult → Prop where
  /-- One call, whose reply is recorded. -/
  | called {task : Task} {input : Json} {c : Call} (reply : Reply)
      (h : task.recordedCall? scene input = some c) :
    Recorded scene task [(c, reply)] (.ofReply input reply)
  /-- No call, because the key is of no use. -/
  | refused {settings : StorageSettings} {input key : Json} (message : String)
      (hkey : input.get? "key" = some key) (h : key.recordedKey? = none) :
    Recorded scene (.storage settings) [] (.fail input message)
  /-- No call, because the task is an answer. -/
  | answered (settings : ResponseSettings) (output : Json) :
    Recorded scene (.response settings) [] (.succeed (.obj [("output", output)]) output)

theorem Recorded.explained {scene : Scene} {task : Task} {calls : List (Call × Reply)}
    {r : StepResult} (h : Recorded scene task calls r) : r.Explained := by
  cases h with
  | called reply _ => exact StepResult.explained_ofReply _ reply
  | refused message _ _ => exact StepResult.explained_fail _ message
  | answered _ output => exact StepResult.explained_succeed _ output

theorem Recorded.loop? {scene : Scene} {task : Task} {calls : List (Call × Reply)}
    {r : StepResult} (h : Recorded scene task calls r) : r.loop? = none := by
  cases h <;> simp

/-- Without a key of use, no call is read off a record. -/
theorem recordedCall?_refused {scene : Scene} {settings : StorageSettings} {input key : Json}
    (hkey : input.get? "key" = some key) (h : key.recordedKey? = none) :
    (Task.storage settings).recordedCall? scene input = none := by
  simp only [recordedCall?, hkey, Option.bind_some, h]
  rfl

/-- What is recorded tells whether there was a call. -/
theorem Recorded.tellsCall {scene : Scene} {task : Task} {calls : List (Call × Reply)}
    {r : StepResult} (h : Recorded scene task calls r) : task.TellsCall scene r.input := by
  cases h with
  | called reply hc =>
    have hsome := Option.isSome_iff_exists.mpr ⟨_, hc⟩
    rw [StepResult.input_ofReply]
    cases task with
    | code settings => exact hsome
    | integration settings => exact hsome
    | storage settings =>
      -- A call on the store is read off with its key, which is then of use.
      simp only [recordedCall?, bind, Option.bind_eq_some_iff] at hc
      obtain ⟨k, ⟨key, hkey, hk⟩, -⟩ := hc
      exact ⟨key, hkey, iff_of_true hsome
        (Json.isSome_recordedKey?_iff.mp (Option.isSome_iff_exists.mpr ⟨k, hk⟩))⟩
    | response settings => contradiction
  | refused message hkey hnone =>
    refine ⟨_, hkey, iff_of_false ?_ ?_⟩
    · rw [StepResult.input_fail, recordedCall?_refused hkey hnone]
      exact Bool.false_ne_true
    · rw [← Json.isSome_recordedKey?_iff, hnone]
      exact Bool.false_ne_true
  | answered settings output => rfl

theorem yields_call {c : Call} {input : Json} {calls : List (Call × Reply)} {r : StepResult}
    (h : (c.perform input).Yields calls r) :
    ∃ reply, calls = [(c, reply)] ∧ r = .ofReply input reply := by
  cases h with
  | call h =>
    cases h with
    | done => exact ⟨_, rfl, rfl⟩

theorem recordedKey?_of_storageKey? {key : Json} :
    Json.recordedKey? key = (storageKey? key).toOption := by
  cases key with
  | str s =>
    by_cases h : Text.allBlank s <;>
      simp [Json.recordedKey?, storageKey?, h, Except.toOption]
  | _ => rfl

theorem ofWord?_scope (scope : StoreScope) : StoreScope.ofWord? scope.word = some scope := by
  cases scope <;> rfl

theorem ofWord?_operation (operation : StorageOperation) :
    StorageOperation.ofWord? operation.word = some operation := by
  cases operation <;> rfl

/-- The call read off the record of a task that works on the store. -/
theorem recordedCall?_storage (scene : Scene) (s : StorageSettings) (key : Json)
    (value : Option Json) :
    (Task.storage s).recordedCall? scene
        (.obj ([("key", key), ("operation", .str s.operation.word), ("scope", .str s.scope.word)]
          ++ value.toList.map ("value", ·))) =
      (storageKey? key).toOption.map fun k =>
        let storeKey := s.scope.scopedKey scene.flowVersionId scene.executionId k
        match s.operation with
        | .get => .get storeKey
        | .put => .put storeKey (value.getD .null) := by
  have hvalue : Json.get? "value"
      (.obj ([("key", key), ("operation", .str s.operation.word), ("scope", .str s.scope.word)]
        ++ value.toList.map ("value", ·))) = value := by
    cases value <;> rfl
  simp only [recordedCall?, hvalue]
  simp only [Json.text?, Json.get?, Named.get?, List.cons_append, String.reduceEq, if_true,
    if_false, Option.bind_some, Json.string?, recordedKey?_of_storageKey?, ofWord?_scope,
    ofWord?_operation]
  cases storageKey? key with
  | error _ => rfl
  | ok k => cases s.operation <;> rfl

/-- What a task does, it records. -/
theorem recorded_of_yields {scene : Scene} {view : View} {task : Task}
    {calls : List (Call × Reply)} {r : StepResult}
    (h : (task.perform scene view).Yields calls r) : Recorded scene task calls r := by
  cases task with
  | code s =>
    obtain ⟨reply, rfl, rfl⟩ := yields_call h
    exact .called reply rfl
  | integration s =>
    obtain ⟨reply, rfl, rfl⟩ := yields_call h
    exact .called reply rfl
  | storage s =>
    have hcall := recordedCall?_storage scene s (view.resolve s.key) (s.value.map view.resolve)
    rw [perform, performStorage] at h
    obtain ⟨message, hkey, hact⟩ | ⟨key, hkey, ⟨hop, hact⟩ | ⟨hop, hact⟩⟩ :=
      storageAct_cases scene s (view.resolve s.key) (s.value.map view.resolve)
    · have hnone : (view.resolve s.key).recordedKey? = none := by
        rw [recordedKey?_of_storageKey?, hkey]
        rfl
      rw [hact] at h
      cases h with
      | done => exact .refused message rfl hnone
    · rw [hkey, hop] at hcall
      rw [hact, hop] at h
      obtain ⟨reply, rfl, rfl⟩ := yields_call h
      exact .called reply hcall
    · rw [hkey, hop] at hcall
      rw [hact, hop] at h
      obtain ⟨reply, rfl, rfl⟩ := yields_call h
      exact .called reply hcall
  | response s =>
    cases h with
    | done => exact .answered s _

end Task
end Stepwise

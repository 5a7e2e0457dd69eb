/-
# Flows

A flow is a trigger followed by a chain of actions. An action is a task that is done
once, or a loop with a chain of its own that is run once for each item.

Key definitions: `Task`, `Chain`, `Trigger`, `Flow`, `Chain.append`, `Chain.walk`,
`Chain.topLevel`, `Chain.link`, `Action`.
-/
import Stepwise.Flow.Settings

namespace Stepwise

/-- What a step does when it is no loop. -/
inductive Task where
  | code (settings : CodeSettings)
  | integration (settings : IntegrationSettings)
  | storage (settings : StorageSettings)
  | response (settings : ResponseSettings)
  deriving DecidableEq

/-- What an action is called. -/
structure Label where
  /-- The name of its step, unique in a flow. -/
  name : String
  /-- A name for people. -/
  displayName : Option String
  deriving DecidableEq, Repr

/-- Actions that are run one after the other. -/
inductive Chain where
  /-- No action. -/
  | nil
  /-- A task and what follows it. -/
  | step (label : Label) (task : Task) (rest : Chain)
  /-- A loop with the chain it repeats, and what follows it. -/
  | loop (label : Label) (settings : LoopSettings) (body rest : Chain)
  deriving DecidableEq, Inhabited

/-- What an action does: a task, or a loop over a chain. -/
inductive Work where
  | task (task : Task)
  | loop (settings : LoopSettings) (body : Chain)
  deriving DecidableEq

/-- One action, taken by itself. -/
structure Action where
  label : Label
  work : Work
  /-- The name of the action after it in its chain. -/
  next : Option String
  deriving DecidableEq

/-- What starts a flow. -/
inductive TriggerKind where
  | empty
  | webhook
  | schedule (cron : String)
  | component (integration trigger : String)
  deriving DecidableEq, Repr

/-- The root of a flow. -/
structure Trigger where
  kind : TriggerKind
  /-- The settings as they stand in the document. -/
  settings : Json
  chain : Chain
  deriving DecidableEq

/-- A flow is known by its trigger. -/
structure Flow where
  trigger : Trigger
  deriving DecidableEq

namespace Task

/-- The word for the kind of a task. -/
def kind : Task → String
  | .code _ => "Code"
  | .integration _ => "NamedIntegration"
  | .storage _ => "Storage"
  | .response _ => "Response"

/-- The settings as a record. -/
def written : Task → Json
  | .code s => s.written
  | .integration s => s.written
  | .storage s => s.written
  | .response s => s.written

/-- The values that may hold placeholders. -/
def templates : Task → List Json
  | .code s => [s.input]
  | .integration s => [s.input]
  | .storage s => s.key :: s.value.toList
  | .response s => [s.output]

end Task

namespace Work

/-- The word for the kind of an action. -/
def kind : Work → String
  | .task t => t.kind
  | .loop _ _ => "LoopOnItems"

/-- The settings as a record. -/
def written : Work → Json
  | .task t => t.written
  | .loop s _ => s.written

/-- The values that may hold placeholders. -/
def templates : Work → List Json
  | .task t => t.templates
  | .loop s _ => [s.items]

end Work

namespace Chain

/-- The name of the first action. -/
def firstName? : Chain → Option String
  | .nil => none
  | .step label _ _ => some label.name
  | .loop label _ _ _ => some label.name

/-- Whether there is no action. -/
def isEmpty : Chain → Bool
  | .nil => true
  | _ => false

/-- The actions of the chain itself, in order. -/
def topLevel : Chain → List Action
  | .nil => []
  | .step label task rest => ⟨label, .task task, rest.firstName?⟩ :: rest.topLevel
  | .loop label settings body rest =>
    ⟨label, .loop settings body, rest.firstName?⟩ :: rest.topLevel

/-- All actions, those of a loop's body after the loop. -/
def walk : Chain → List Action
  | .nil => []
  | .step label task rest => ⟨label, .task task, rest.firstName?⟩ :: rest.walk
  | .loop label settings body rest =>
    ⟨label, .loop settings body, rest.firstName?⟩ :: body.walk ++ rest.walk

/-- The first chain followed by the second. -/
def append : Chain → Chain → Chain
  | .nil, chain => chain
  | .step label task rest, chain => .step label task (rest.append chain)
  | .loop label settings body rest, chain => .loop label settings body (rest.append chain)

/-- A task by itself. -/
def ofTask (label : Label) (task : Task) : Chain := .step label task .nil

/-- A loop by itself. -/
def ofLoop (label : Label) (items : Json) (body : Chain) : Chain := .loop label ⟨items⟩ body .nil

/-- The first action of a chain, followed by another chain in place of its own rest. -/
def withNext (chain next : Chain) : Chain :=
  match chain with
  | .nil => next
  | .step label task _ => .step label task next
  | .loop label settings body _ => .loop label settings body next

/-- The first actions of the chains, one after the other. -/
def link : List Chain → Chain
  | [] => .nil
  | chain :: rest => chain.withNext (link rest)

end Chain

namespace Action

/-- The name of the first action that a loop repeats. -/
def bodyName? (a : Action) : Option String :=
  match a.work with
  | .loop _ body => body.firstName?
  | .task _ => none

end Action

namespace TriggerKind

/-- The kind as it is written. -/
def written : TriggerKind → Json
  | .empty => .str "empty"
  | .webhook => .str "webhook"
  | .schedule cron => .obj [("schedule", .obj [("cron_expression", .str cron)])]
  | .component integration trigger =>
    .obj [("component",
      .obj [("integrationName", .str integration), ("triggerName", .str trigger)])]

/-- The kind that is written. -/
def decode (source : Json.Source) (v : Json) : Except Json.DecodeError TriggerKind := do
  let (name, content) ← Json.variant v
  match name with
  | "empty" => (Json.unitVariant content).map fun _ => .empty
  | "webhook" => (Json.unitVariant content).map fun _ => .webhook
  | "schedule" =>
    let record ← Json.recordVariant source content
    let s ← Json.Slots.of source "variant TriggerKind::Schedule" ["cron_expression"] record
    s.finish (s.required 0 "cron_expression" Json.decodeString) .schedule
  | "component" =>
    let record ← Json.recordVariant source content
    let s ← Json.Slots.of source "variant TriggerKind::Component"
      ["integrationName", "triggerName"] record
    s.finish
      (Json.both (s.required 0 "integrationName" Json.decodeString)
        (s.required 1 "triggerName" Json.decodeString))
      fun (integration, trigger) => .component integration trigger
  | other =>
    .error (.unknownVariant other ["empty", "webhook", "schedule", "component"])

end TriggerKind

namespace Flow

/-- All actions of the flow. -/
def actions (f : Flow) : List Action := f.trigger.chain.walk

end Flow

end Stepwise

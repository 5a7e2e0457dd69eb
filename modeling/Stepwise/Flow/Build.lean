/-
# Building flows

A node of a job document is checked by itself first: its name, its kind and the
settings that this kind requires. Then the chain in a loop's body is built, and then
the chain after the node. The first fault in this order is reported. A link that is
null or absent ends its chain.

Key definitions: `Chain.build`, `Node.ofJson`, `Node.link?`, `Trigger.build`,
`Flow.buildUnchecked`.
-/
import Stepwise.Flow.Basic
import Stepwise.Flow.Error
import Stepwise.Text.Blank

namespace Stepwise

/-- The kinds of actions. -/
inductive ActionKind where
  | code
  | integration
  | storage
  | response
  | loop
  deriving DecidableEq, Repr

/-- The kind that a word names. -/
def ActionKind.ofWord? (word : String) : Option ActionKind :=
  if word = "Code" || word = "CODE" then some .code
  else if word = "NamedIntegration" || word = "NAMED_INTEGRATION" then some .integration
  else if word = "Storage" || word = "STORAGE" then some .storage
  else if word = "Response" || word = "RESPONSE" then some .response
  else if word = "LoopOnItems" || word = "LOOP_ON_ITEMS" then some .loop
  else none

/-- A node of a job document without its links. -/
inductive Node where
  | task (label : Label) (task : Task)
  | loop (label : Label) (settings : LoopSettings)
  deriving DecidableEq

/-- The value, if it is an object. -/
def requireObject (v : Json) (context : String) : Except FlowError Unit :=
  if v.isObject then .ok () else .error (.notAnObject context)

/-- A setting that must be present and not null. -/
def requireSetting (settings : Json) (action field : String) : Except FlowError Unit :=
  match settings.get? field with
  | none | some .null => .error (.missingSetting action field)
  | some _ => .ok ()

/-- A setting that must not be blank. -/
def requireText (text action field : String) : Except FlowError Unit :=
  if Text.allBlank text then .error (.missingSetting action field) else .ok ()

/-- The settings as `decode` reads them. -/
def decodeSettings {α : Type} (decode : Json → Except Json.DecodeError α) (settings : Json)
    (action : String) : Except FlowError α :=
  match decode settings with
  | .ok a => .ok a
  | .error e => .error (.invalidSettings action e)

namespace Node

/-- The settings of a code action. -/
def code (settings : Json) (name : String) : Except FlowError CodeSettings := do
  requireSetting settings name "artifact"
  let s ← decodeSettings (CodeSettings.decode .value) settings name
  requireText s.artifact name "artifact"
  return s

/-- The settings of an integration action. -/
def integration (settings : Json) (name : String) : Except FlowError IntegrationSettings := do
  requireSetting settings name "integrationName"
  requireSetting settings name "actionName"
  let s ← decodeSettings (IntegrationSettings.decode .value) settings name
  requireText s.integration name "integrationName"
  requireText s.action name "actionName"
  return s

/-- The settings of a storage action. Writing needs a value. -/
def storage (settings : Json) (name : String) : Except FlowError StorageSettings := do
  requireSetting settings name "operation"
  requireSetting settings name "key"
  let s ← decodeSettings (StorageSettings.decode .value) settings name
  if s.operation = .put && s.value.isNone then
    throw (.missingSetting name "value")
  return s

/-- The settings of a response. Null is an answer like any other. -/
def response (settings : Json) (name : String) : Except FlowError ResponseSettings := do
  unless settings.hasKey "output" do
    throw (.missingSetting name "output")
  decodeSettings (ResponseSettings.decode .value) settings name

/-- The settings of a loop. -/
def loopSettings (settings : Json) (name : String) : Except FlowError LoopSettings := do
  requireSetting settings name "items"
  decodeSettings (LoopSettings.decode .value) settings name

/-- A node by itself, its links ignored. -/
def ofJson (document : Json) : Except FlowError Node := do
  requireObject document "action"
  let name ← match (document.get? "name").bind Json.string? with
    | some s => .ok (Text.trim s)
    | none => .error (.missingField "name")
  let word ← match (document.get? "kind").bind Json.string? with
    | some s => .ok s
    | none => .error (.missingField "kind")
  let kind ← match ActionKind.ofWord? word with
    | some k => .ok k
    | none => .error (.unknownActionKind name word)
  let settings := (document.get? "settings").getD .empty
  requireObject settings ("settings of '" ++ name ++ "'")
  let label : Label := ⟨name, (document.get? "displayName").bind Json.string?⟩
  match kind with
  | .code => return .task label (.code (← code settings name))
  | .integration => return .task label (.integration (← integration settings name))
  | .storage => return .task label (.storage (← storage settings name))
  | .response => return .task label (.response (← response settings name))
  | .loop => return .loop label (← loopSettings settings name)

/-- The node that a field links to. -/
def link? (document : Json) (field : String) : Option Json :=
  match document.get? field with
  | none | some .null => none
  | some v => some v

end Node

theorem Named.sizeOf_get? {α : Type} [SizeOf α] {name : String} {a : α} :
    ∀ {entries : Named α}, Named.get? entries name = some a → sizeOf a < sizeOf entries
  | (n, b) :: rest, h => by
    unfold Named.get? at h
    split at h
    · cases h
      simp +arith
    · have := Named.sizeOf_get? h
      simp
      omega

theorem Json.sizeOf_get? {key : String} {v w : Json} (h : v.get? key = some w) :
    sizeOf w < sizeOf v := by
  cases v with
  | obj fields =>
    have := Named.sizeOf_get? (h : Named.get? fields key = some w)
    simp
    omega
  | _ => simp [Json.get?] at h

theorem Node.sizeOf_link? {document v : Json} {field : String}
    (h : Node.link? document field = some v) : sizeOf v < sizeOf document := by
  unfold Node.link? at h
  split at h
  · contradiction
  · contradiction
  · cases h
    exact Json.sizeOf_get? ‹_›

/-- The chain that starts at a node. -/
def Chain.build (document : Json) : Except FlowError Chain :=
  match Node.ofJson document with
  | .error e => .error e
  | .ok (.task label task) =>
    match _link : Node.link? document "nextAction" with
    | none => .ok (.step label task .nil)
    | some next => (Chain.build next).map (.step label task)
  | .ok (.loop label settings) =>
    let body : Except FlowError Chain := match _link : Node.link? document "firstLoopAction" with
      | none => .ok .nil
      | some first => Chain.build first
    match body with
    | .error e => .error e
    | .ok body =>
      match _link : Node.link? document "nextAction" with
      | none => .ok (.loop label settings body .nil)
      | some next => (Chain.build next).map (.loop label settings body)
termination_by sizeOf document
decreasing_by all_goals exact Node.sizeOf_link? ‹_›

/-- The chain that a field links to. -/
def Chain.buildLink (document : Json) (field : String) : Except FlowError Chain :=
  match Node.link? document field with
  | none => .ok .nil
  | some v => Chain.build v

/-- A setting of the trigger that must be a string other than a blank one. -/
def triggerText (settings : Json) (field : String) : Except FlowError String :=
  match (settings.get? field).bind Json.string? with
  | some s =>
    if Text.allBlank s then .error (.missingSetting "trigger" field) else .ok (Text.trim s)
  | none => .error (.missingSetting "trigger" field)

/-- The kind that a word and the settings of a trigger name. -/
def TriggerKind.build (word : String) (settings : Json) : Except FlowError TriggerKind := do
  if word = "Empty" || word = "EMPTY" then return .empty
  else if word = "Webhook" || word = "WEBHOOK" then return .webhook
  else if word = "Schedule" || word = "SCHEDULE" then
    return .schedule (← triggerText settings "cronExpression")
  else if word = "Component" || word = "COMPONENT" then
    let integration ← triggerText settings "integrationName"
    let trigger ← triggerText settings "triggerName"
    return .component integration trigger
  else throw (.unknownTriggerKind word)

/-- The trigger of a document with the chain after it. A kind that is no string counts
as absent. -/
def Trigger.build (document : Json) : Except FlowError Trigger := do
  requireObject document "trigger"
  let settings := (document.get? "settings").getD .empty
  let word := ((document.get? "kind").bind Json.string?).getD "Empty"
  let kind ← TriggerKind.build word settings
  let chain ← Chain.buildLink document "nextAction"
  return ⟨kind, settings, chain⟩

/-- The flow of a document, its names not checked. -/
def Flow.buildUnchecked (document : Json) : Except FlowError Flow := do
  requireObject document "flow"
  match document.get? "trigger" with
  | none => throw (.missingField "trigger")
  | some trigger => return ⟨← Trigger.build trigger⟩

end Stepwise

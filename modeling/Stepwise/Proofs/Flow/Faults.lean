/-
# What is wrong with a node

A node of a job document, its links aside, has to be an object with a name and a kind that
are texts. The kind has to be a known one, and the settings have to be an object with what
this kind needs, which can be decoded and is no blank text. A fault is the first of these
that fails: each is said together with what went well before it. A node has no fault exactly
if there is something that it reads as, and it never has two.

Key definitions: `ActionKind.words`, `Node.Head`, `ActionKind.absent?`, `ActionKind.decode`,
`Node.unusable?`, `Node.Fault`, `Node.Reads`.
Key theorems: `result_iff_of_cases`, `ActionKind.mem_words_iff`, `Node.ofJson_eq_ok_iff`,
`Node.ofJson_eq_error_iff`, `Node.forall_not_fault_iff`.
-/
import Stepwise.Flow.Build

namespace Stepwise

/-- If the checks leave nothing open, what is wrong and what is right decide the result. -/
theorem result_iff_of_cases {ε α : Type} {result : Except ε α} {wrong : ε → Prop}
    {right : α → Prop} (hwrong : ∀ e, wrong e → result = .error e)
    (hright : ∀ a, right a → result = .ok a) (h : (∃ e, wrong e) ∨ ∃ a, right a) :
    (∀ e, result = .error e ↔ wrong e) ∧ ∀ a, result = .ok a ↔ right a := by
  refine ⟨fun e => ⟨fun he => ?_, hwrong e⟩, fun a => ⟨fun ha => ?_, hright a⟩⟩
  · rcases h with ⟨e', hcase⟩ | ⟨a, hcase⟩
    · rw [hwrong e' hcase, Except.error.injEq] at he
      exact he ▸ hcase
    · rw [hright a hcase] at he
      contradiction
  · rcases h with ⟨e, hcase⟩ | ⟨a', hcase⟩
    · rw [hwrong e hcase] at ha
      contradiction
    · rw [hright a' hcase, Except.ok.injEq] at ha
      exact ha ▸ hcase

namespace ActionKind

/-- The words that name a kind. -/
def words : ActionKind → List String
  | .code => ["Code", "CODE"]
  | .integration => ["NamedIntegration", "NAMED_INTEGRATION"]
  | .storage => ["Storage", "STORAGE"]
  | .response => ["Response", "RESPONSE"]
  | .loop => ["LoopOnItems", "LOOP_ON_ITEMS"]

theorem ofWord?_of_mem {word : String} {kind : ActionKind} (h : word ∈ kind.words) :
    ofWord? word = some kind := by
  cases kind <;>
    simp only [words, List.mem_cons, List.not_mem_nil, or_false] at h <;>
      rcases h with rfl | rfl <;> rfl

theorem ofWord?_of_not_mem {word : String} (h : ∀ kind : ActionKind, word ∉ kind.words) :
    ofWord? word = none := by
  have hall : word ∉ code.words ∧ word ∉ integration.words ∧ word ∉ storage.words ∧
      word ∉ response.words ∧ word ∉ loop.words := ⟨h _, h _, h _, h _, h _⟩
  simp only [words, List.mem_cons, List.not_mem_nil, or_false, not_or] at hall
  simp [ofWord?, hall]

/-- A word is read as the kind that it names. -/
theorem mem_words_iff {word : String} {kind : ActionKind} :
    word ∈ kind.words ↔ ofWord? word = some kind := by
  refine ⟨ofWord?_of_mem, fun h => ?_⟩
  by_cases hnone : ∀ other : ActionKind, word ∉ other.words
  · rw [ofWord?_of_not_mem hnone] at h
    contradiction
  · obtain ⟨other, hother⟩ := Classical.not_forall_not.mp hnone
    rw [ofWord?_of_mem hother, Option.some.injEq] at h
    exact h ▸ hother

/-- A word that names no kind is read as none. -/
theorem forall_not_mem_words_iff {word : String} :
    (∀ kind : ActionKind, word ∉ kind.words) ↔ ofWord? word = none := by
  simp only [mem_words_iff]
  exact Option.eq_none_iff_forall_ne_some.symm

/-- Whether a setting is present and not null. -/
def isSet (settings : Json) (field : String) : Bool :=
  match settings.get? field with
  | none | some .null => false
  | some _ => true

/-- The first setting that a kind needs and that is not there. The output of a response may
be null, what the other kinds need may not. -/
def absent? (settings : Json) : ActionKind → Option String
  | .code => ["artifact"].find? fun field => !isSet settings field
  | .integration => ["integrationName", "actionName"].find? fun field => !isSet settings field
  | .storage => ["operation", "key"].find? fun field => !isSet settings field
  | .response => ["output"].find? fun field => !settings.hasKey field
  | .loop => ["items"].find? fun field => !isSet settings field

/-- The node of a kind that settings are decoded to. -/
def decode (label : Label) (settings : Json) : ActionKind → Except Json.DecodeError Node
  | .code => (CodeSettings.decode .value settings).map fun s => .task label (.code s)
  | .integration =>
    (IntegrationSettings.decode .value settings).map fun s => .task label (.integration s)
  | .storage => (StorageSettings.decode .value settings).map fun s => .task label (.storage s)
  | .response => (ResponseSettings.decode .value settings).map fun s => .task label (.response s)
  | .loop => (LoopSettings.decode .value settings).map (.loop label)

end ActionKind

namespace Node

/-- The text in a field of a document. -/
def text? (document : Json) (field : String) : Option String :=
  (document.get? field).bind Json.string?

/-- The settings of a node; a node without any has none to read. -/
def settings (document : Json) : Json := (document.get? "settings").getD .empty

/-- The first decoded setting that cannot be used: a blank text, or no value to write. -/
def unusable? : Node → Option String
  | .task _ (.code s) => if Text.allBlank s.artifact then some "artifact" else none
  | .task _ (.integration s) =>
    if Text.allBlank s.integration then some "integrationName"
    else if Text.allBlank s.action then some "actionName"
    else none
  | .task _ (.storage s) => if s.operation = .put ∧ s.value = none then some "value" else none
  | .task _ (.response _) | .loop _ _ => none

/-- What every node has: a name, a kind, and settings that are an object. The name is
trimmed. -/
structure Head (document : Json) (label : Label) (kind : ActionKind) : Prop where
  name : ∃ raw, text? document "name" = some raw ∧ label.name = Text.trim raw
  displayName : label.displayName = text? document "displayName"
  kind : ∃ word, text? document "kind" = some word ∧ word ∈ kind.words
  settings : (settings document).isObject = true

/-- What is wrong with a node by itself: the first check that fails. -/
inductive Fault (document : Json) : FlowError → Prop
  | notObject (h : document.isObject = false) : Fault document (.notAnObject "action")
  | nameless (hobject : document.isObject = true) (h : text? document "name" = none) :
    Fault document (.missingField "name")
  | kindless {raw : String} (hname : text? document "name" = some raw)
    (h : text? document "kind" = none) : Fault document (.missingField "kind")
  | unknownKind {raw word : String} (hname : text? document "name" = some raw)
    (hkind : text? document "kind" = some word) (h : ∀ kind : ActionKind, word ∉ kind.words) :
    Fault document (.unknownActionKind (Text.trim raw) word)
  | settings {raw word : String} {kind : ActionKind} (hname : text? document "name" = some raw)
    (hkind : text? document "kind" = some word) (hknown : word ∈ kind.words)
    (h : (settings document).isObject = false) :
    Fault document (.notAnObject ("settings of '" ++ Text.trim raw ++ "'"))
  | absent {label : Label} {kind : ActionKind} {field : String} (head : Head document label kind)
    (h : kind.absent? (settings document) = some field) :
    Fault document (.missingSetting label.name field)
  | undecodable {label : Label} {kind : ActionKind} {e : Json.DecodeError}
    (head : Head document label kind) (hset : kind.absent? (settings document) = none)
    (h : kind.decode label (settings document) = .error e) :
    Fault document (.invalidSettings label.name e)
  | unusable {label : Label} {kind : ActionKind} {node : Node} {field : String}
    (head : Head document label kind) (hset : kind.absent? (settings document) = none)
    (hdecode : kind.decode label (settings document) = .ok node)
    (h : node.unusable? = some field) : Fault document (.missingSetting label.name field)

/-- What a node without a fault reads as. -/
inductive Reads (document : Json) : Node → Prop
  | intro {label : Label} {kind : ActionKind} {node : Node} (head : Head document label kind)
    (hset : kind.absent? (settings document) = none)
    (hdecode : kind.decode label (settings document) = .ok node) (h : node.unusable? = none) :
    Reads document node

variable {document : Json} {label : Label} {kind : ActionKind}

/-! ### The checks on settings -/

/-- The checks on the settings of a node whose head is known, one after the other. -/
def check (label : Label) (kind : ActionKind) (settings : Json) : Except FlowError Node :=
  match kind.absent? settings with
  | some field => .error (.missingSetting label.name field)
  | none =>
    match kind.decode label settings with
    | .error e => .error (.invalidSettings label.name e)
    | .ok node =>
      match node.unusable? with
      | some field => .error (.missingSetting label.name field)
      | none => .ok node

theorem requireSetting_eq (settings : Json) (name field : String) :
    requireSetting settings name field =
      if ActionKind.isSet settings field then .ok () else .error (.missingSetting name field) := by
  unfold requireSetting ActionKind.isSet
  split <;> simp_all

theorem code_eq_check (label : Label) (settings : Json) :
    (do return .task label (.code (← code settings label.name))) =
      check label .code settings := by
  simp only [code, requireSetting_eq, check, ActionKind.absent?, ActionKind.decode,
    List.find?_cons, List.find?_nil]
  cases ActionKind.isSet settings "artifact" with
  | false => rfl
  | true =>
    cases hdecode : CodeSettings.decode .value settings with
    | error e => simp [decodeSettings, hdecode, bind, Except.bind, Except.map]
    | ok s =>
      cases hblank : Text.allBlank s.artifact <;>
        simp [decodeSettings, hdecode, requireText, unusable?, hblank, bind, Except.bind, pure,
          Except.pure, Except.map]

theorem integration_eq_check (label : Label) (settings : Json) :
    (do return .task label (.integration (← integration settings label.name))) =
      check label .integration settings := by
  simp only [integration, requireSetting_eq, check, ActionKind.absent?, ActionKind.decode,
    List.find?_cons, List.find?_nil]
  cases ActionKind.isSet settings "integrationName" with
  | false => rfl
  | true =>
    cases ActionKind.isSet settings "actionName" with
    | false => rfl
    | true =>
      cases hdecode : IntegrationSettings.decode .value settings with
      | error e => simp [decodeSettings, hdecode, bind, Except.bind, Except.map]
      | ok s =>
        cases hname : Text.allBlank s.integration <;> cases haction : Text.allBlank s.action <;>
          simp [decodeSettings, hdecode, requireText, unusable?, hname, haction, bind,
            Except.bind, pure, Except.pure, Except.map]

theorem storage_eq_check (label : Label) (settings : Json) :
    (do return .task label (.storage (← storage settings label.name))) =
      check label .storage settings := by
  simp only [storage, requireSetting_eq, check, ActionKind.absent?, ActionKind.decode,
    List.find?_cons, List.find?_nil]
  cases ActionKind.isSet settings "operation" with
  | false => rfl
  | true =>
    cases ActionKind.isSet settings "key" with
    | false => rfl
    | true =>
      cases hdecode : StorageSettings.decode .value settings with
      | error e => simp [decodeSettings, hdecode, bind, Except.bind, Except.map]
      | ok s =>
        obtain ⟨operation, key, value, scope⟩ := s
        cases operation <;> cases value <;>
          simp [decodeSettings, hdecode, unusable?, bind, Except.bind, pure, Except.pure,
            Except.map, throw, throwThe, MonadExceptOf.throw]

theorem response_eq_check (label : Label) (settings : Json) :
    (do return .task label (.response (← response settings label.name))) =
      check label .response settings := by
  simp only [response, check, ActionKind.absent?, ActionKind.decode, List.find?_cons,
    List.find?_nil]
  cases settings.hasKey "output" with
  | false => rfl
  | true =>
    cases hdecode : ResponseSettings.decode .value settings <;>
      simp [decodeSettings, hdecode, unusable?, bind, Except.bind, pure, Except.pure, Except.map]

theorem loopSettings_eq_check (label : Label) (settings : Json) :
    (do return .loop label (← loopSettings settings label.name)) =
      check label .loop settings := by
  simp only [loopSettings, requireSetting_eq, check, ActionKind.absent?, ActionKind.decode,
    List.find?_cons, List.find?_nil]
  cases ActionKind.isSet settings "items" with
  | false => rfl
  | true =>
    cases hdecode : LoopSettings.decode .value settings <;>
      simp [decodeSettings, hdecode, unusable?, bind, Except.bind, pure, Except.pure, Except.map]

/-! ### All checks -/

theorem isObject_of_text? {field raw : String} (h : text? document field = some raw) :
    document.isObject = true := by
  cases document with
  | obj fields => rfl
  | _ => simp [text?, Json.get?] at h

/-- A node with a head is read from its settings. -/
theorem ofJson_of_head (head : Head document label kind) :
    ofJson document = check label kind (settings document) := by
  obtain ⟨⟨raw, hname, htrim⟩, hdisplay, ⟨word, hword, hkind⟩, hsettings⟩ := head
  have hobject := isObject_of_text? hname
  rw [ActionKind.mem_words_iff] at hkind
  unfold text? at hname hword hdisplay
  unfold settings at hsettings ⊢
  have hlabel : (⟨Text.trim raw, (document.get? "displayName").bind Json.string?⟩ : Label) =
      label := by
    rw [← htrim, ← hdisplay]
  simp only [ofJson, requireObject, hobject, hname, hword, hkind, hsettings, hlabel, if_true,
    bind, Except.bind]
  rw [← htrim]
  cases kind with
  | code => exact code_eq_check label _
  | integration => exact integration_eq_check label _
  | storage => exact storage_eq_check label _
  | response => exact response_eq_check label _
  | loop => exact loopSettings_eq_check label _

theorem ofJson_of_fault {e : FlowError} (h : Fault document e) : ofJson document = .error e := by
  cases h with
  | notObject h => simp [ofJson, requireObject, h, bind, Except.bind]
  | nameless hobject h =>
    unfold text? at h
    simp [ofJson, requireObject, hobject, h, bind, Except.bind]
  | kindless hname h =>
    have hobject := isObject_of_text? hname
    unfold text? at hname h
    simp [ofJson, requireObject, hobject, hname, h, bind, Except.bind]
  | unknownKind hname hkind h =>
    have hobject := isObject_of_text? hname
    rw [ActionKind.forall_not_mem_words_iff] at h
    unfold text? at hname hkind
    simp [ofJson, requireObject, hobject, hname, hkind, h, bind, Except.bind]
  | settings hname hkind hknown h =>
    have hobject := isObject_of_text? hname
    rw [ActionKind.mem_words_iff] at hknown
    unfold text? at hname hkind
    unfold settings at h
    simp [ofJson, requireObject, hobject, hname, hkind, hknown, h, bind, Except.bind]
  | absent head h => simp only [ofJson_of_head head, check, h]
  | undecodable head hset h => simp only [ofJson_of_head head, check, hset, h]
  | unusable head hset hdecode h => simp only [ofJson_of_head head, check, hset, hdecode, h]

theorem ofJson_of_reads {node : Node} (h : Reads document node) :
    ofJson document = .ok node := by
  obtain ⟨head, hset, hdecode, husable⟩ := h
  simp only [ofJson_of_head head, check, hset, hdecode, husable]

/-- The checks leave nothing open. -/
theorem fault_or_reads (document : Json) :
    (∃ e, Fault document e) ∨ ∃ node, Reads document node := by
  cases hobject : document.isObject with
  | false => exact .inl ⟨_, .notObject hobject⟩
  | true =>
  cases hname : text? document "name" with
  | none => exact .inl ⟨_, .nameless hobject hname⟩
  | some raw =>
  cases hword : text? document "kind" with
  | none => exact .inl ⟨_, .kindless hname hword⟩
  | some word =>
  cases hkind : ActionKind.ofWord? word with
  | none =>
    exact .inl ⟨_, .unknownKind hname hword (ActionKind.forall_not_mem_words_iff.mpr hkind)⟩
  | some kind =>
  have hknown : word ∈ kind.words := ActionKind.mem_words_iff.mpr hkind
  cases hsettings : (settings document).isObject with
  | false => exact .inl ⟨_, .settings hname hword hknown hsettings⟩
  | true =>
  have head : Head document ⟨Text.trim raw, text? document "displayName"⟩ kind :=
    ⟨⟨raw, hname, rfl⟩, rfl, ⟨word, hword, hknown⟩, hsettings⟩
  cases hset : kind.absent? (settings document) with
  | some field => exact .inl ⟨_, .absent head hset⟩
  | none =>
  cases hdecode : kind.decode ⟨Text.trim raw, text? document "displayName"⟩ (settings document) with
  | error e => exact .inl ⟨_, .undecodable head hset hdecode⟩
  | ok node =>
  cases husable : node.unusable? with
  | some field => exact .inl ⟨_, .unusable head hset hdecode husable⟩
  | none => exact .inr ⟨node, .intro head hset hdecode husable⟩

/-- A node is refused for what is wrong with it. -/
theorem ofJson_eq_error_iff {e : FlowError} : ofJson document = .error e ↔ Fault document e :=
  (result_iff_of_cases (fun _ => ofJson_of_fault) (fun _ => ofJson_of_reads)
    (fault_or_reads document)).1 e

/-- A node is taken for what it reads as. -/
theorem ofJson_eq_ok_iff {node : Node} : ofJson document = .ok node ↔ Reads document node :=
  (result_iff_of_cases (fun _ => ofJson_of_fault) (fun _ => ofJson_of_reads)
    (fault_or_reads document)).2 node

/-- Nothing is wrong with a node exactly if there is something that it reads as. -/
theorem forall_not_fault_iff :
    (∀ e, ¬Fault document e) ↔ ∃ node, Reads document node := by
  constructor
  · intro h
    exact (fault_or_reads document).resolve_left fun ⟨e, hfault⟩ => h e hfault
  · rintro ⟨node, hreads⟩ e hfault
    have hok := ofJson_of_reads hreads
    rw [ofJson_of_fault hfault] at hok
    contradiction

end Node
end Stepwise

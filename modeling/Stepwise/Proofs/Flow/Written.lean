/-
# Flows as they are written

An action is written as an object with its name, its name for people if it has one, the word
for its kind, its settings with all their fields, and what it is linked to. Building a chain
from what was written gives this very chain, provided that a document could say it at all:
names are trimmed, names of artifacts and integrations are not blank, keys and items are not
null, and a value is there where one is stored, and is not null. These are the only chains
that come back as they were.

Key definitions: `Chain.written`, `Chain.value`, `Action.Writable`.
Key theorems: `CodeSettings.decode_written`, `StorageSettings.decode_written`,
`Node.check_written_iff`, `Chain.build_value_iff`.
-/
import Stepwise.Proofs.Flow.Building
import Stepwise.Proofs.Json.Canonical
import Stepwise.Proofs.Json.Records

namespace Stepwise

open Json (Slots)

/-! ### What is written -/

/-- The fields of a label. -/
def Label.fields (label : Label) : Json.Fields :=
  ("name", .str label.name) ::
    match label.displayName with
    | none => []
    | some name => [("displayName", .str name)]

/-- The field of a link, which is left out if the link leads to nothing. -/
def linkFields (field : String) (v : Json) : Json.Fields := if v = .null then [] else [(field, v)]

/-- The fields of a node with the body and the successor that it is linked to. -/
def Node.fields (label : Label) (work : Work) (body next : Json) : Json.Fields :=
  label.fields ++ [("kind", .str work.kind), ("settings", work.written)] ++
    linkFields "firstLoopAction" body ++ linkFields "nextAction" next

namespace Chain

/-- A chain as it is written, which is what its first action is linked to. -/
def written : Chain → Json
  | .nil => .null
  | .step label task rest => .obj (Node.fields label (.task task) .null rest.written)
  | .loop label settings body rest =>
    .obj (Node.fields label (.loop settings body) body.written rest.written)

/-- A chain as a value. -/
def value (chain : Chain) : Json := chain.written.canonical

end Chain

/-! ### What can be read back -/

/-- A work whose settings a document can hold. -/
def Work.Writable : Work → Prop
  | .task (.code s) => Text.allBlank s.artifact = false
  | .task (.integration s) => Text.allBlank s.integration = false ∧ Text.allBlank s.action = false
  | .task (.storage s) =>
    s.key ≠ .null ∧ (s.operation = .put → s.value ≠ none) ∧ s.value ≠ some .null
  | .task (.response _) => True
  | .loop s _ => s.items ≠ .null

/-- An action that a document can hold. -/
structure Action.Writable (a : Action) : Prop where
  name : Text.trim a.label.name = a.label.name
  work : a.work.Writable
  /-- Every template is a value, its keys in order. -/
  canonical : ∀ v ∈ a.work.templates, v.canonical = v

/-! ### Settings -/

theorem CodeSettings.decode_written (s : CodeSettings) :
    decode .value s.written.canonical = .ok { s with input := s.input.canonical } := by
  obtain ⟨slots, hslots, hspoilt, hholds⟩ := Slots.exists_of_canonical
    [("artifact", .str s.artifact), ("input", s.input)] (by simp [Named.names])
    "CodeSettings" ["artifact", "input"]
  have hartifact := Slots.required_string (hholds 0 "artifact" rfl) "artifact"
  have hinput := Slots.withDefault_value (hholds 1 "input" rfl) Json.null
  simp only [decode, written, hslots, hartifact, hinput, bind, Except.bind, Json.both,
    Slots.finish_ok hspoilt]

theorem IntegrationSettings.decode_written (s : IntegrationSettings) :
    decode .value s.written.canonical = .ok { s with input := s.input.canonical } := by
  obtain ⟨slots, hslots, hspoilt, hholds⟩ := Slots.exists_of_canonical
    [("integrationName", .str s.integration), ("actionName", .str s.action),
      ("input", s.input)] (by simp [Named.names])
    "IntegrationSettings" ["integrationName", "actionName", "input"]
  have hname := Slots.required_string (hholds 0 "integrationName" rfl) "integrationName"
  have haction := Slots.required_string (hholds 1 "actionName" rfl) "actionName"
  have hinput := Slots.withDefault_value (hholds 2 "input" rfl) Json.null
  simp only [decode, written, hslots, hname, haction, hinput, bind, Except.bind, Json.both,
    Slots.finish_ok hspoilt]

theorem StorageOperation.decode_word (operation : StorageOperation) :
    decode (.str operation.word) = .ok operation := by
  cases operation <;> rfl

theorem StoreScope.decode_word (scope : StoreScope) : decode (.str scope.word) = .ok scope := by
  cases scope <;> rfl

/-- The fields of storage settings; there is none for a value if there is no value. -/
theorem StorageSettings.exists_fields (s : StorageSettings) :
    ∃ fields, s.written = .obj fields ∧ (Named.names fields).Nodup ∧
      Named.get? fields "operation" = some (.str s.operation.word) ∧
      Named.get? fields "key" = some s.key ∧ Named.get? fields "value" = s.value ∧
      Named.get? fields "scope" = some (.str s.scope.word) := by
  obtain ⟨operation, key, value, scope⟩ := s
  refine ⟨_, rfl, ?_⟩
  cases value <;> simp [Named.names, Named.get?]

/-- A value that is null comes back as none. -/
theorem StorageSettings.decode_written (s : StorageSettings) :
    decode .value s.written.canonical =
      .ok { s with
        key := s.key.canonical
        value := (s.value.filter (· ≠ .null)).map Json.canonical } := by
  obtain ⟨fields, hfields, hnodup, hget⟩ := s.exists_fields
  obtain ⟨slots, hslots, hspoilt, hholds⟩ := Slots.exists_of_canonical fields hnodup
    "StorageSettings" ["operation", "key", "value", "scope"]
  have hoperation := hholds 0 "operation" rfl
  have hkey := hholds 1 "key" rfl
  have hvalue := hholds 2 "value" rfl
  have hscope := hholds 3 "scope" rfl
  rw [hget.1] at hoperation
  rw [hget.2.1] at hkey
  rw [hget.2.2.1] at hvalue
  rw [hget.2.2.2] at hscope
  simp only [decode, hfields, hslots,
    Slots.required_ok hoperation (StorageOperation.decode_word s.operation),
    Slots.required_value hkey, Slots.withDefault_option hvalue,
    Slots.withDefault_ok hscope (StoreScope.decode_word s.scope), bind, Except.bind, Json.both,
    Slots.finish_ok hspoilt]

theorem ResponseSettings.decode_written (s : ResponseSettings) :
    decode .value s.written.canonical = .ok ⟨s.output.canonical⟩ := by
  obtain ⟨slots, hslots, hspoilt, hholds⟩ := Slots.exists_of_canonical
    [("output", s.output)] (by simp [Named.names]) "ResponseSettings" ["output"]
  have houtput := Slots.required_value (hholds 0 "output" rfl) "output"
  simp only [decode, written, hslots, houtput, bind, Except.bind, Slots.finish_ok hspoilt]

theorem LoopSettings.decode_written (s : LoopSettings) :
    decode .value s.written.canonical = .ok ⟨s.items.canonical⟩ := by
  obtain ⟨slots, hslots, hspoilt, hholds⟩ := Slots.exists_of_canonical
    [("items", s.items)] (by simp [Named.names]) "LoopSettings" ["items"]
  have hitems := Slots.required_value (hholds 0 "items" rfl) "items"
  simp only [decode, written, hslots, hitems, bind, Except.bind, Slots.finish_ok hspoilt]

/-! ### Nodes -/

/-- The kind of the node that a work is written as. -/
def Work.nodeKind : Work → ActionKind
  | .task (.code _) => .code
  | .task (.integration _) => .integration
  | .task (.storage _) => .storage
  | .task (.response _) => .response
  | .loop _ _ => .loop

theorem Work.kind_mem_words (work : Work) : work.kind ∈ work.nodeKind.words := by
  cases work with
  | task task => cases task <;> exact List.mem_cons_self
  | loop settings body => exact List.mem_cons_self

namespace Node

variable (label : Label) (work : Work) (body next : Json)

theorem nodup_fields : (Named.names (fields label work body next)).Nodup := by
  obtain ⟨name, displayName⟩ := label
  cases displayName <;> by_cases hbody : body = .null <;> by_cases hnext : next = .null <;>
    simp [fields, Label.fields, linkFields, hbody, hnext, Named.names]

theorem get?_name : Named.get? (fields label work body next) "name" = some (.str label.name) := rfl

theorem get?_displayName :
    Named.get? (fields label work body next) "displayName" = label.displayName.map .str := by
  obtain ⟨name, displayName⟩ := label
  cases displayName <;> by_cases hbody : body = .null <;> by_cases hnext : next = .null <;>
    simp [fields, Label.fields, linkFields, hbody, hnext, Named.get?]

theorem get?_kind : Named.get? (fields label work body next) "kind" = some (.str work.kind) := by
  obtain ⟨name, displayName⟩ := label
  cases displayName <;> simp [fields, Label.fields, Named.get?]

theorem get?_settings :
    Named.get? (fields label work body next) "settings" = some work.written := by
  obtain ⟨name, displayName⟩ := label
  cases displayName <;> simp [fields, Label.fields, Named.get?]

theorem get?_body : Named.get? (fields label work body next) "firstLoopAction" =
    if body = .null then none else some body := by
  obtain ⟨name, displayName⟩ := label
  cases displayName <;> by_cases hbody : body = .null <;> by_cases hnext : next = .null <;>
    simp [fields, Label.fields, linkFields, hbody, hnext, Named.get?]

theorem get?_next : Named.get? (fields label work body next) "nextAction" =
    if next = .null then none else some next := by
  obtain ⟨name, displayName⟩ := label
  cases displayName <;> by_cases hbody : body = .null <;> by_cases hnext : next = .null <;>
    simp [fields, Label.fields, linkFields, hbody, hnext, Named.get?]

/-- The node of an action as a value. -/
def value : Json := (Json.obj (fields label work body next)).canonical

theorem get?_value (field : String) : (value label work body next).get? field =
    (Named.get? (fields label work body next) field).map Json.canonical :=
  Json.get?_canonicalFields (nodup_fields label work body next) field

theorem isObject_written (work : Work) : work.written.canonical.isObject = true := by
  cases work with
  | task task => cases task <;> rfl
  | loop settings body => rfl

/-- The name of a node that was written is trimmed, all else in its head is as it was. -/
theorem head_value :
    Head (value label work body next) ⟨Text.trim label.name, label.displayName⟩ work.nodeKind where
  name := ⟨label.name, by rw [text?, get?_value, get?_name]; rfl, rfl⟩
  displayName := by
    rw [text?, get?_value, get?_displayName]
    cases label.displayName <;> rfl
  kind := ⟨work.kind, by rw [text?, get?_value, get?_kind]; rfl, work.kind_mem_words⟩
  settings := by
    rw [settings, get?_value, get?_settings]
    exact isObject_written work

theorem settings_value : settings (value label work body next) = work.written.canonical := by
  rw [settings, get?_value, get?_settings]
  rfl

theorem isSet_canonical {fields : Json.Fields} {field : String} {v : Json}
    (h : (Named.names fields).Nodup) (hget : Named.get? fields field = some v) :
    ActionKind.isSet (Json.obj fields).canonical field = !decide (v = .null) := by
  have hcanonical : (Json.obj fields).canonical.get? field = some v.canonical := by
    rw [← Option.map_some, ← hget]
    exact Json.get?_canonicalFields h field
  unfold ActionKind.isSet
  rw [hcanonical]
  cases v <;> rfl

/-- A key or items that are null count as absent; nothing else that is written does. -/
theorem absent?_written (work : Work) : work.nodeKind.absent? work.written.canonical =
    match work with
    | .task (.storage s) => if s.key = .null then some "key" else none
    | .loop s _ => if s.items = .null then some "items" else none
    | _ => none := by
  cases work with
  | task task =>
    cases task with
    | code s => rfl
    | integration s => rfl
    | storage s =>
      obtain ⟨fields, hfields, hnodup, hoperation, hkey, -⟩ := s.exists_fields
      simp only [Work.nodeKind, Work.written, Task.written, hfields, ActionKind.absent?,
        List.find?_cons, isSet_canonical hnodup hoperation, isSet_canonical hnodup hkey]
      by_cases hnull : s.key = .null <;> simp [hnull]
    | response s => rfl
  | loop s body =>
    obtain ⟨items⟩ := s
    cases items <;> rfl

end Node

/-- A work as it comes back: templates are in canonical form, and a value that is null is
none. -/
def Work.restored : Work → Work
  | .task (.code s) => .task (.code { s with input := s.input.canonical })
  | .task (.integration s) => .task (.integration { s with input := s.input.canonical })
  | .task (.storage s) => .task <| .storage { s with
      key := s.key.canonical
      value := (s.value.filter (· ≠ .null)).map Json.canonical }
  | .task (.response s) => .task (.response ⟨s.output.canonical⟩)
  | .loop s body => .loop ⟨s.items.canonical⟩ body

namespace Node

theorem decode_written (label : Label) (work : Work) :
    work.nodeKind.decode label work.written.canonical = .ok (work.restored.node label) := by
  cases work with
  | task task =>
    cases task with
    | code s =>
      simp only [Work.nodeKind, Work.written, Task.written, ActionKind.decode,
        CodeSettings.decode_written]
      rfl
    | integration s =>
      simp only [Work.nodeKind, Work.written, Task.written, ActionKind.decode,
        IntegrationSettings.decode_written]
      rfl
    | storage s =>
      simp only [Work.nodeKind, Work.written, Task.written, ActionKind.decode,
        StorageSettings.decode_written]
      rfl
    | response s =>
      simp only [Work.nodeKind, Work.written, Task.written, ActionKind.decode,
        ResponseSettings.decode_written]
      rfl
  | loop s body =>
    simp only [Work.nodeKind, Work.written, ActionKind.decode, LoopSettings.decode_written]
    rfl

/-- A node comes back as it was exactly if a document can hold it. -/
theorem check_written_iff (label label' : Label) (work : Work) :
    check label work.nodeKind work.written.canonical = .ok (work.node label') ↔
      label = label' ∧ work.Writable ∧ ∀ v ∈ work.templates, v.canonical = v := by
  simp only [check, absent?_written, decode_written]
  cases work with
  | task task =>
    cases task with
    | code s =>
      obtain ⟨artifact, input⟩ := s
      cases hblank : Text.allBlank artifact <;>
        simp [Work.restored, Work.node, unusable?, Work.Writable, Work.templates, Task.templates,
          hblank]
    | integration s =>
      obtain ⟨integration, action, input⟩ := s
      cases hname : Text.allBlank integration <;> cases haction : Text.allBlank action <;>
        simp [Work.restored, Work.node, unusable?, Work.Writable, Work.templates, Task.templates,
          hname, haction]
    | storage s =>
      obtain ⟨operation, key, value, scope⟩ := s
      by_cases hkey : key = .null
      · simp [Work.Writable, hkey]
      cases value with
      | none =>
        cases operation <;>
          simp [Work.restored, Work.node, unusable?, Work.Writable, Work.templates,
            Task.templates, hkey]
      | some v =>
        by_cases hnull : v = .null <;> cases operation <;>
          simp [Work.restored, Work.node, unusable?, Work.Writable, Work.templates,
            Task.templates, hkey, hnull, Option.filter]
    | response s =>
      obtain ⟨output⟩ := s
      simp [Work.restored, Work.node, unusable?, Work.Writable, Work.templates, Task.templates]
  | loop s body =>
    obtain ⟨items⟩ := s
    by_cases hnull : items = .null <;>
      simp [Work.restored, Work.node, unusable?, Work.Writable, Work.templates, hnull]

theorem ofJson_value_iff (label : Label) (work : Work) (body next : Json) (after : Option String) :
    ofJson (value label work body next) = .ok (work.node label) ↔
      (⟨label, work, after⟩ : Action).Writable := by
  rw [ofJson_of_head (head_value label work body next), settings_value, check_written_iff]
  constructor
  · rintro ⟨hlabel, hwork, hcanonical⟩
    exact ⟨congrArg Label.name hlabel, hwork, hcanonical⟩
  · rintro ⟨hname, hwork, hcanonical⟩
    obtain ⟨name, displayName⟩ := label
    exact ⟨congrArg (Label.mk · displayName) hname, hwork, hcanonical⟩

theorem link?_value (label : Label) (work : Work) (body next : Json) :
    link? (value label work body next) "firstLoopAction" =
        (if body = .null then none else some body.canonical) ∧
      link? (value label work body next) "nextAction" =
        if next = .null then none else some next.canonical := by
  unfold link?
  rw [get?_value, get?_value, get?_body, get?_next]
  constructor
  · cases body <;> simp [Json.canonical]
  · cases next <;> simp [Json.canonical]

end Node

namespace Chain

theorem written_eq_null_iff {chain : Chain} : chain.written = .null ↔ chain = .nil := by
  cases chain <;> simp [written]

/-- What a link leads to comes back as it was, if the chain it was written from does. -/
theorem buildLink_value_iff {document : Json} {field : String} {chain : Chain}
    (hlink : Node.link? document field =
      if chain.written = .null then none else some chain.written.canonical)
    (h : build chain.value = .ok chain ↔ chain ≠ .nil ∧ ∀ a ∈ chain.walk, a.Writable) :
    buildLink document field = .ok chain ↔ ∀ a ∈ chain.walk, a.Writable := by
  unfold buildLink
  rw [hlink]
  by_cases hnil : chain = .nil
  · subst hnil
    simp [written, walk]
  · rw [if_neg fun hnull => hnil (written_eq_null_iff.mp hnull)]
    exact h.trans (and_iff_right hnil)

/-- **Building undoes writing.** A chain is built again from what it is written as exactly if
there is an action in it and a document can hold each of its actions: the name is trimmed,
names of artifacts and integrations are not blank, keys and items are not null, a value is
there where one is stored, none is null, and every template is a value. -/
theorem build_value_iff : ∀ chain : Chain,
    build chain.value = .ok chain ↔ chain ≠ .nil ∧ ∀ a ∈ chain.walk, a.Writable
  | .nil => by
    rw [value, written, build_eq]
    simp [Json.canonical, Node.ofJson, requireObject, Json.isObject, bind, Except.bind]
  | .step label task rest => by
    have hlinks := Node.link?_value label (.task task) .null rest.written
    have hrest := buildLink_value_iff hlinks.2 (build_value_iff rest)
    have hnode : Node.ofJson (Node.value label (.task task) .null rest.written) =
        .ok (.task label task) ↔ (⟨label, .task task, rest.firstName?⟩ : Action).Writable :=
      Node.ofJson_value_iff ..
    show build (Node.value label (.task task) .null rest.written) = _ ↔ _
    rw [build_eq_step_iff, hnode, hrest, walk, List.forall_mem_cons]
    simp
  | .loop label settings body rest => by
    have hlinks := Node.link?_value label (.loop settings body) body.written rest.written
    have hbody := buildLink_value_iff hlinks.1 (build_value_iff body)
    have hrest := buildLink_value_iff hlinks.2 (build_value_iff rest)
    have hnode : Node.ofJson (Node.value label (.loop settings body) body.written rest.written) =
        .ok (.loop label settings) ↔
          (⟨label, .loop settings body, rest.firstName?⟩ : Action).Writable :=
      Node.ofJson_value_iff ..
    show build (Node.value label (.loop settings body) body.written rest.written) = _ ↔ _
    rw [build_eq_loop_iff, hnode, hbody, hrest, walk, List.cons_append, List.forall_mem_cons,
      List.forall_mem_append]
    simp

end Chain
end Stepwise

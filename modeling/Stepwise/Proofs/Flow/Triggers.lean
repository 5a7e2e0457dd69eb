/-
# What is wrong with a trigger

A trigger has to be an object. Its kind is the one that its word names; one without a word for
it is empty, and so is one whose kind is no text at all. A kind that runs on a schedule or at a
component needs texts in the settings that are not blank, and they are trimmed. A trigger is
refused for the first of this that fails, and only if nothing is wrong with itself for what is
wrong with the chain after it.

Key definitions: `TriggerKind.Gives`, `TriggerKind.Means`, `TriggerKind.Fault`, `Trigger.Names`,
`Trigger.Reads`, `Trigger.Fault`.
Key theorems: `TriggerKind.build_eq_ok_iff`, `TriggerKind.build_eq_error_iff`,
`Trigger.build_reads_or_faults`.
-/
import Stepwise.Proofs.Flow.Faults

namespace Stepwise

namespace TriggerKind

/-- The settings have a text other than a blank one, which is this one once it is trimmed. -/
def Gives (settings : Json) (field text : String) : Prop :=
  ∃ raw, Node.text? settings field = some raw ∧ Text.allBlank raw = false ∧ text = Text.trim raw

/-- The kind that a word names, with what it needs of the settings. -/
inductive Means (settings : Json) (word : String) : TriggerKind → Prop
  | empty (hword : word = "Empty" ∨ word = "EMPTY") : Means settings word .empty
  | webhook (hword : word = "Webhook" ∨ word = "WEBHOOK") : Means settings word .webhook
  | schedule {cron : String} (hword : word = "Schedule" ∨ word = "SCHEDULE")
    (hcron : Gives settings "cronExpression" cron) : Means settings word (.schedule cron)
  | component {integration trigger : String} (hword : word = "Component" ∨ word = "COMPONENT")
    (hintegration : Gives settings "integrationName" integration)
    (htrigger : Gives settings "triggerName" trigger) :
    Means settings word (.component integration trigger)

/-- The words that name a kind. -/
def words : List String :=
  ["Empty", "EMPTY", "Webhook", "WEBHOOK", "Schedule", "SCHEDULE", "Component", "COMPONENT"]

/-- What is wrong with a word or with the settings that it needs: the first that fails. -/
inductive Fault (settings : Json) (word : String) : FlowError → Prop
  | unknown (h : word ∉ words) : Fault settings word (.unknownTriggerKind word)
  | schedule (hword : word = "Schedule" ∨ word = "SCHEDULE")
    (h : ∀ cron, ¬Gives settings "cronExpression" cron) :
    Fault settings word (.missingSetting "trigger" "cronExpression")
  | integration (hword : word = "Component" ∨ word = "COMPONENT")
    (h : ∀ integration, ¬Gives settings "integrationName" integration) :
    Fault settings word (.missingSetting "trigger" "integrationName")
  | trigger {integration : String} (hword : word = "Component" ∨ word = "COMPONENT")
    (hintegration : Gives settings "integrationName" integration)
    (h : ∀ trigger, ¬Gives settings "triggerName" trigger) :
    Fault settings word (.missingSetting "trigger" "triggerName")

variable {settings : Json} {word field text : String} {kind : TriggerKind} {e : FlowError}

/-! ### Settings -/

theorem triggerText_of_gives (h : Gives settings field text) :
    triggerText settings field = .ok text := by
  obtain ⟨raw, hraw, hblank, rfl⟩ := h
  unfold Node.text? at hraw
  simp only [triggerText, hraw, hblank, Bool.false_eq_true, if_false]

theorem triggerText_of_missing (h : ∀ text, ¬Gives settings field text) :
    triggerText settings field = .error (.missingSetting "trigger" field) := by
  unfold triggerText
  cases hraw : (settings.get? field).bind Json.string? with
  | none => rfl
  | some raw =>
    cases hblank : Text.allBlank raw with
    | false => exact absurd ⟨raw, hraw, hblank, rfl⟩ (h (Text.trim raw))
    | true => simp only [hblank, if_true]

/-! ### Kinds -/

theorem build_schedule (hword : word = "Schedule" ∨ word = "SCHEDULE") :
    build word settings = (triggerText settings "cronExpression" >>= fun cron =>
      return .schedule cron) := by
  rcases hword with rfl | rfl <;> rfl

theorem build_component (hword : word = "Component" ∨ word = "COMPONENT") :
    build word settings = (triggerText settings "integrationName" >>= fun integration =>
      triggerText settings "triggerName" >>= fun trigger =>
        return .component integration trigger) := by
  rcases hword with rfl | rfl <;> rfl

theorem build_of_means (h : Means settings word kind) : build word settings = .ok kind := by
  cases h with
  | empty hword => rcases hword with rfl | rfl <;> rfl
  | webhook hword => rcases hword with rfl | rfl <;> rfl
  | schedule hword hcron =>
    rw [build_schedule hword, triggerText_of_gives hcron]
    rfl
  | component hword hintegration htrigger =>
    rw [build_component hword, triggerText_of_gives hintegration]
    show (triggerText settings "triggerName" >>= _) = _
    rw [triggerText_of_gives htrigger]
    rfl

theorem build_of_fault (h : Fault settings word e) : build word settings = .error e := by
  cases h with
  | unknown h =>
    simp only [words, List.mem_cons, List.not_mem_nil, or_false, not_or] at h
    simp [build, h, throw, throwThe, MonadExceptOf.throw]
  | schedule hword h =>
    rw [build_schedule hword, triggerText_of_missing h]
    rfl
  | integration hword h =>
    rw [build_component hword, triggerText_of_missing h]
    rfl
  | trigger hword hintegration h =>
    rw [build_component hword, triggerText_of_gives hintegration]
    show (triggerText settings "triggerName" >>= _) = _
    rw [triggerText_of_missing h]
    rfl

theorem gives_or_missing (settings : Json) (field : String) :
    (∃ text, Gives settings field text) ∨ ∀ text, ¬Gives settings field text := by
  rw [← not_exists]
  exact Classical.em _

theorem mem_words_iff :
    word ∈ words ↔ (word = "Empty" ∨ word = "EMPTY") ∨ (word = "Webhook" ∨ word = "WEBHOOK") ∨
      (word = "Schedule" ∨ word = "SCHEDULE") ∨ (word = "Component" ∨ word = "COMPONENT") := by
  simp only [words, List.mem_cons, List.not_mem_nil, or_false, or_assoc]

/-- The checks leave nothing open. -/
theorem fault_or_means (settings : Json) (word : String) :
    (∃ e, Fault settings word e) ∨ ∃ kind, Means settings word kind := by
  by_cases hword : word ∈ words
  · rcases mem_words_iff.mp hword with hword | hword | hword | hword
    · exact .inr ⟨_, .empty hword⟩
    · exact .inr ⟨_, .webhook hword⟩
    · rcases gives_or_missing settings "cronExpression" with ⟨cron, hcron⟩ | h
      · exact .inr ⟨_, .schedule hword hcron⟩
      · exact .inl ⟨_, .schedule hword h⟩
    · rcases gives_or_missing settings "integrationName" with ⟨integration, hintegration⟩ | h
      · rcases gives_or_missing settings "triggerName" with ⟨trigger, htrigger⟩ | h
        · exact .inr ⟨_, .component hword hintegration htrigger⟩
        · exact .inl ⟨_, .trigger hword hintegration h⟩
      · exact .inl ⟨_, .integration hword h⟩
  · exact .inl ⟨_, .unknown hword⟩

theorem build_eq_ok_iff : build word settings = .ok kind ↔ Means settings word kind :=
  (result_iff_of_cases (fun _ => build_of_fault) (fun _ => build_of_means)
    (fault_or_means settings word)).2 kind

theorem build_eq_error_iff : build word settings = .error e ↔ Fault settings word e :=
  (result_iff_of_cases (fun _ => build_of_fault) (fun _ => build_of_means)
    (fault_or_means settings word)).1 e

end TriggerKind

namespace Trigger

/-- The word for the kind of a trigger. One whose kind is no text counts as one without. -/
inductive Names (document : Json) : String → Prop
  | said {word : String} (h : document.get? "kind" = some (.str word)) : Names document word
  | unsaid (h : document.get? "kind" = none) : Names document "Empty"
  | noText {kind : Json} (h : document.get? "kind" = some kind) (htext : kind.string? = none) :
    Names document "Empty"

/-- What a document without a fault reads as. -/
structure Reads (document : Json) (trigger : Trigger) : Prop where
  object : document.isObject = true
  kind : ∃ word, Names document word ∧ TriggerKind.Means (Node.settings document) word trigger.kind
  settings : trigger.settings = Node.settings document
  chain : Chain.buildLink document "nextAction" = .ok trigger.chain

/-- What is wrong with a trigger by itself. -/
inductive Fault (document : Json) : FlowError → Prop
  | notObject (h : document.isObject = false) : Fault document (.notAnObject "trigger")
  | kind {word : String} {e : FlowError} (hobject : document.isObject = true)
    (hword : Names document word) (h : TriggerKind.Fault (Node.settings document) word e) :
    Fault document e

variable {document : Json} {word : String} {kind : TriggerKind} {e : FlowError}

/-! ### The word -/

/-- The word for the kind as it is read. -/
def wordOf (document : Json) : String := (Node.text? document "kind").getD "Empty"

theorem names_iff : Names document word ↔ word = wordOf document := by
  unfold wordOf Node.text?
  constructor
  · rintro (h | h | ⟨h, htext⟩)
    · rw [h]
      rfl
    · rw [h]
      rfl
    · rw [h, Option.bind_some, htext]
      rfl
  · rintro rfl
    cases hkind : document.get? "kind" with
    | none => exact .unsaid hkind
    | some v =>
      cases htext : v.string? with
      | none =>
        rw [Option.bind_some, htext]
        exact .noText hkind htext
      | some word =>
        cases v with
        | str s =>
          obtain rfl := Option.some.inj htext
          exact .said hkind
        | _ => contradiction

/-- An object is at fault for what is wrong with its kind. -/
theorem fault_iff (hobject : document.isObject = true) :
    Fault document e ↔ TriggerKind.build (wordOf document) (Node.settings document) = .error e := by
  rw [TriggerKind.build_eq_error_iff]
  constructor
  · rintro (h | ⟨-, hword, h⟩)
    · rw [hobject] at h
      contradiction
    · exact names_iff.mp hword ▸ h
  · exact fun h => .kind hobject (names_iff.mpr rfl) h

/-! ### The trigger and its chain -/

theorem build_of_object (hobject : document.isObject = true) :
    Trigger.build document =
      (TriggerKind.build (wordOf document) (Node.settings document) >>= fun kind =>
        Chain.buildLink document "nextAction" >>= fun chain =>
          return ⟨kind, Node.settings document, chain⟩) := by
  rw [Trigger.build, requireObject, if_pos hobject]
  rfl

theorem build_of_notObject (h : document.isObject = false) :
    Trigger.build document = .error (.notAnObject "trigger") := by
  rw [Trigger.build, requireObject, h]
  rfl

theorem build_of_fault (h : Fault document e) : Trigger.build document = .error e := by
  cases hobject : document.isObject with
  | true =>
    rw [build_of_object hobject, (fault_iff hobject).mp h]
    rfl
  | false =>
    cases h with
    | notObject _ => exact build_of_notObject hobject
    | kind h => exact absurd (hobject.symm.trans h) Bool.false_ne_true

/-- A trigger that is not at fault itself has a kind and is built with its chain. -/
theorem exists_kind_of_not_fault (h : ∀ e, ¬Fault document e) :
    document.isObject = true ∧ ∃ kind,
      TriggerKind.build (wordOf document) (Node.settings document) = .ok kind ∧
      Trigger.build document = (Chain.buildLink document "nextAction" >>= fun chain =>
        return ⟨kind, Node.settings document, chain⟩) := by
  cases hobject : document.isObject with
  | false => exact absurd (.notObject hobject) (h _)
  | true =>
    cases hkind : TriggerKind.build (wordOf document) (Node.settings document) with
    | error e => exact absurd ((fault_iff hobject).mpr hkind) (h e)
    | ok kind =>
      refine ⟨rfl, kind, rfl, ?_⟩
      rw [build_of_object hobject, hkind]
      rfl

theorem build_of_reads {trigger : Trigger} (h : Reads document trigger) :
    Trigger.build document = .ok trigger := by
  obtain ⟨kind, settings, chain⟩ := trigger
  obtain ⟨hobject, ⟨word, hword, hmeans⟩, rfl, hchain⟩ := h
  rw [build_of_object hobject, ← names_iff.mp hword, TriggerKind.build_of_means hmeans]
  show (Chain.buildLink document "nextAction" >>= _) = _
  rw [hchain]
  rfl

/-- What is wrong with the chain is told only if nothing is wrong with the trigger. -/
theorem build_of_chain_error (hown : ∀ own, ¬Fault document own)
    (hchain : Chain.buildLink document "nextAction" = .error e) :
    Trigger.build document = .error e := by
  obtain ⟨-, kind, -, hbuild⟩ := exists_kind_of_not_fault hown
  rw [hbuild, hchain]
  rfl

/-- The trigger and its chain leave nothing open. -/
theorem fault_or_reads (document : Json) :
    (∃ e, Fault document e ∨
      (∀ own, ¬Fault document own) ∧ Chain.buildLink document "nextAction" = .error e) ∨
    ∃ trigger, Reads document trigger := by
  by_cases hfault : ∃ own, Fault document own
  · obtain ⟨own, hown⟩ := hfault
    exact .inl ⟨own, .inl hown⟩
  · have hown : ∀ own, ¬Fault document own := not_exists.mp hfault
    obtain ⟨hobject, kind, hkind, -⟩ := exists_kind_of_not_fault hown
    have hmeans := TriggerKind.build_eq_ok_iff.mp hkind
    cases hchain : Chain.buildLink document "nextAction" with
    | error e => exact .inl ⟨e, .inr ⟨hown, rfl⟩⟩
    | ok chain =>
      exact .inr ⟨⟨kind, _, chain⟩, hobject, ⟨_, names_iff.mpr rfl, hmeans⟩, rfl, hchain⟩

/-- A document is built exactly to what it reads as. It is refused exactly for what is wrong
with the trigger, or, if nothing is, for what is wrong with the chain after it. -/
theorem build_reads_or_faults (document : Json) :
    (∀ trigger, Trigger.build document = .ok trigger ↔ Reads document trigger) ∧
    (∀ e, Trigger.build document = .error e ↔
      Fault document e ∨
        (∀ own, ¬Fault document own) ∧ Chain.buildLink document "nextAction" = .error e) := by
  have hwrong : ∀ e, (Fault document e ∨ (∀ own, ¬Fault document own) ∧
      Chain.buildLink document "nextAction" = .error e) → Trigger.build document = .error e := by
    rintro e (hown | ⟨hown, hchain⟩)
    · exact build_of_fault hown
    · exact build_of_chain_error hown hchain
  obtain ⟨herror, hok⟩ :=
    result_iff_of_cases hwrong (fun _ => build_of_reads) (fault_or_reads document)
  exact ⟨hok, herror⟩

end Trigger

/-! ### A kind that is no text -/

namespace Unnamed

/-- A trigger whose kind is a number. -/
def document : Json := .obj [("kind", .num (.int 7))]

/-- A kind is there and names none, yet the trigger is built, as if there were no kind. -/
theorem built_as_empty :
    document.get? "kind" = some (.num (.int 7)) ∧
      (∀ word ∈ TriggerKind.words, document.get? "kind" ≠ some (.str word)) ∧
      Trigger.build document = .ok ⟨.empty, .empty, .nil⟩ := by
  refine ⟨rfl, fun word _ h => ?_, rfl⟩
  have hkind : Json.num (.int 7) = .str word := Option.some.inj h
  contradiction

end Unnamed
end Stepwise

/-
# Sorted templates

Every value in a document is put into canonical form when it is decoded. So in an accepted job
the configuration, the output of the trigger and all templates are sorted, whatever the
document looks like.

Key definitions: `Action.Sorted`, `Job.Sorted`.

Key theorems: `Action.sorted_of_decode`, `Chain.sorted_of_buildLink`, `Job.sorted_of_ofJson`.
-/
import Stepwise.Proofs.Flow.Accepted
import Stepwise.Proofs.Flow.Building
import Stepwise.Proofs.Json.Records
import Stepwise.Proofs.Trace.Sorted

namespace Stepwise

open Json (DecodeError Slots)

/-- Every template of the action is sorted. -/
def Action.Sorted (a : Action) : Prop := ∀ v ∈ a.work.templates, v.Sorted

/-- Everything that the values of a run are made of is sorted. -/
structure Job.Sorted (job : Job) : Prop where
  configs : ∀ e ∈ job.configs, e.2.Sorted
  payload : job.payload.Sorted
  templates : ∀ a ∈ job.flow.actions, a.Sorted

/-! ### Values that are decoded -/

namespace Json

variable {s : Slots} {i : Nat} {v w : Json}

theorem sorted_of_decodeValue (h : decodeValue w = .ok v) : v.Sorted :=
  Except.ok.inj h ▸ sorted_canonical w

theorem sorted_of_required {name : String} (h : s.required i name decodeValue = .ok v) :
    v.Sorted := by
  obtain ⟨w, hw⟩ := Slots.required_eq_ok h
  exact sorted_of_decodeValue hw

theorem sorted_of_withDefault {default : Json} (hdefault : default.Sorted)
    (h : s.withDefault i default decodeValue = .ok v) : v.Sorted := by
  rcases Slots.withDefault_eq_ok h with rfl | ⟨w, hw⟩
  · exact hdefault
  · exact sorted_of_decodeValue hw

theorem sorted_of_option {found : Option Json}
    (h : s.withDefault i none (decodeOption decodeValue) = .ok found) :
    ∀ v ∈ found, v.Sorted := by
  rintro v rfl
  rcases Slots.withDefault_eq_ok h with hnone | ⟨w, hw⟩
  · contradiction
  · have hnull : w ≠ .null := by
      rintro rfl
      cases hw
    rw [Slots.decodeOption_of_ne_null hnull] at hw
    cases hw
    exact sorted_canonical w

end Json

/-! ### Nodes and chains -/

namespace Task

variable {settings : Json}

theorem sorted_of_code {s : CodeSettings} (h : CodeSettings.decode .value settings = .ok s) :
    ∀ v ∈ templates (.code s), v.Sorted := by
  obtain ⟨slots, _, hparts, rfl⟩ := Slots.exists_of_record h
  obtain ⟨-, hinput⟩ := Json.both_eq_ok hparts
  exact List.forall_mem_singleton.mpr (Json.sorted_of_withDefault Json.sorted_null hinput)

theorem sorted_of_integration {s : IntegrationSettings}
    (h : IntegrationSettings.decode .value settings = .ok s) :
    ∀ v ∈ templates (.integration s), v.Sorted := by
  obtain ⟨slots, _, hparts, rfl⟩ := Slots.exists_of_record h
  obtain ⟨-, hparts⟩ := Json.both_eq_ok hparts
  obtain ⟨-, hinput⟩ := Json.both_eq_ok hparts
  exact List.forall_mem_singleton.mpr (Json.sorted_of_withDefault Json.sorted_null hinput)

theorem sorted_of_storage {s : StorageSettings}
    (h : StorageSettings.decode .value settings = .ok s) :
    ∀ v ∈ templates (.storage s), v.Sorted := by
  obtain ⟨slots, _, hparts, rfl⟩ := Slots.exists_of_record h
  obtain ⟨-, hparts⟩ := Json.both_eq_ok hparts
  obtain ⟨hkey, hparts⟩ := Json.both_eq_ok hparts
  obtain ⟨hvalue, -⟩ := Json.both_eq_ok hparts
  refine List.forall_mem_cons.mpr ⟨Json.sorted_of_required hkey, fun v hv => ?_⟩
  exact Json.sorted_of_option hvalue v (Option.mem_toList.mp hv)

theorem sorted_of_response {s : ResponseSettings}
    (h : ResponseSettings.decode .value settings = .ok s) :
    ∀ v ∈ templates (.response s), v.Sorted := by
  obtain ⟨slots, _, houtput, rfl⟩ := Slots.exists_of_record h
  exact List.forall_mem_singleton.mpr (Json.sorted_of_required houtput)

end Task

theorem LoopSettings.sorted_of_decode {settings : Json} {s : LoopSettings}
    (h : decode .value settings = .ok s) : s.items.Sorted := by
  obtain ⟨slots, _, hitems, rfl⟩ := Slots.exists_of_record h
  exact Json.sorted_of_required hitems

/-- An action whose settings have been decoded has sorted templates. -/
theorem Action.sorted_of_decode {label : Label} {kind : ActionKind} {settings : Json} {a : Action}
    (h : kind.decode label settings = .ok a.node) : a.Sorted := by
  obtain ⟨own, work, next⟩ := a
  cases kind <;> obtain ⟨s, hs, hnode⟩ := exists_of_map h <;> cases work <;> cases hnode
  case code => exact Task.sorted_of_code hs
  case integration => exact Task.sorted_of_integration hs
  case storage => exact Task.sorted_of_storage hs
  case response => exact Task.sorted_of_response hs
  case loop => exact List.forall_mem_singleton.mpr (LoopSettings.sorted_of_decode hs)

/-- Actions that are built have sorted templates. -/
theorem Chain.sorted_of_buildLink {document : Json} {field : String} {chain : Chain}
    (h : buildLink document field = .ok chain) : ∀ a ∈ chain.walk, a.Sorted := by
  intro a ha
  obtain ⟨v, hreads⟩ := exists_reads_of_buildLink h a ha
  cases hreads with
  | intro _ _ hdecode _ => exact Action.sorted_of_decode hdecode

/-! ### Jobs -/

theorem Trigger.sorted_of_build {document : Json} {trigger : Trigger}
    (h : build document = .ok trigger) : ∀ a ∈ trigger.chain.walk, a.Sorted :=
  Chain.sorted_of_buildLink (buildLink_of_build h)

theorem Flow.sorted_of_build {document : Json} {f : Flow} (h : build document = .ok f) :
    ∀ a ∈ f.actions, a.Sorted := by
  obtain ⟨unchecked, hunchecked, h⟩ := exists_of_bind h
  obtain ⟨-, -, h⟩ := exists_of_bind h
  cases h
  obtain ⟨-, -, hunchecked⟩ := exists_of_bind hunchecked
  cases htrigger : document.get? "trigger" with
  | none =>
    rw [htrigger] at hunchecked
    contradiction
  | some trigger =>
    rw [htrigger] at hunchecked
    obtain ⟨built, hbuilt, hunchecked⟩ := exists_of_bind hunchecked
    cases hunchecked
    exact Trigger.sorted_of_build hbuilt

/-- The configuration that is decoded is sorted. -/
theorem Job.sorted_of_decodeConfig {v : Json} {e : String × Json}
    (h : decodeConfig v = .ok e) : e.2.Sorted := by
  obtain ⟨slots, _, hparts, rfl⟩ := Slots.exists_of_record h
  exact Json.sorted_of_withDefault Json.sorted_null (Json.both_eq_ok hparts).2

theorem Job.sorted_of_decodeConfigs {v : Json} {entries : List (String × Json)}
    (h : Json.decodeList decodeConfig v = .ok entries) : ∀ e ∈ entries, e.2.Sorted := by
  unfold Json.decodeList at h
  split at h
  · intro e he
    obtain ⟨w, hw⟩ := Json.exists_of_mapM h e he
    exact sorted_of_decodeConfig hw
  · contradiction

/-- In the record of a job the configuration and the output of the trigger are sorted. -/
theorem Job.sorted_of_decodeRecord {generated : String} {document : Json}
    {record : String × String × Option String × List (String × Json) × Json × Json}
    (h : decodeRecord generated document = .ok record) :
    (∀ e ∈ record.2.2.2.1, e.2.Sorted) ∧ record.2.2.2.2.1.Sorted := by
  obtain ⟨slots, _, hparts, rfl⟩ := Slots.exists_of_record h
  obtain ⟨-, hparts⟩ := Json.both_eq_ok hparts
  obtain ⟨-, hparts⟩ := Json.both_eq_ok hparts
  obtain ⟨-, hparts⟩ := Json.both_eq_ok hparts
  obtain ⟨hconfigs, hparts⟩ := Json.both_eq_ok hparts
  obtain ⟨hpayload, -⟩ := Json.both_eq_ok hparts
  refine ⟨?_, Json.sorted_of_withDefault Json.sorted_null hpayload⟩
  rcases Slots.withDefault_eq_ok hconfigs with hnone | ⟨v, hv⟩
  · rw [id, hnone]
    exact List.forall_mem_nil _
  · exact sorted_of_decodeConfigs hv

/-- An accepted job is made of sorted values. -/
theorem Job.sorted_of_ofJson {generated : String} {document : Json} {job : Job}
    (h : ofJson generated document = .ok job) : job.Sorted := by
  unfold ofJson at h
  split at h
  · contradiction
  · rename_i hrecord
    obtain ⟨hconfigs, hpayload⟩ := sorted_of_decodeRecord hrecord
    obtain ⟨flow, hflow, h⟩ := exists_of_bind h
    cases h
    exact ⟨fun e he => hconfigs e (Named.mem_of_mem_ofList he), hpayload,
      Flow.sorted_of_build hflow⟩

end Stepwise

/-
# The calls read off a trace

Which calls a run has made can be read off its trace: entry after entry, and in the entry
of a loop iteration after iteration, the recorded input of a step says which call the step
made, if it made one. What is read are the calls that were made, in the order in which
they were made, and the entry of each says what the call answered. So no call is lost when
a loop ends early or its summary is replaced, and none is recorded twice. Nor is one left
out of the reading: every entry of a task that calls can be read as a call.

Key definitions: `Chain.audit`, `StepResult.Answers`, `Logged`.
Key theorems: `Recounts.logged`, `Recounts.exists_recorded`, `Job.calls_logged`.
-/
import Mathlib.Data.List.Forall2
import Stepwise.Proofs.Run.Records

namespace Stepwise

variable {scene : Scene} {σ : Type}

/-- The record says what a call answered. A key under which nothing is stored reads as null. -/
def StepResult.Answers (r : StepResult) : Reply → Prop
  | .ok v => r.status = .succeeded ∧ r.output = .value (v.getD .null) ∧ r.message = none
  | .error e => r.status = .failed ∧ r.output = .value .null ∧ r.message = some e.message

/-- What was called is what is read off a record, and the record says what was answered. -/
def Logged (made : Call × Reply) (read : Call × StepResult) : Prop :=
  made.1 = read.1 ∧ read.2.Answers made.2

namespace Chain

/-- The call read off the record of a task, with the record, if the task made one. -/
def taskAudit (scene : Scene) (record : Task × StepResult) : List (Call × StepResult) :=
  (record.1.recordedCall? scene record.2.input).toList.map (·, record.2)

/-- The calls read off a scope of the chain, each with its record. -/
def audit (scene : Scene) (chain : Chain) (scope : Scope) : List (Call × StepResult) :=
  (chain.taskRecords scope).flatMap (taskAudit scene)

end Chain

theorem StepResult.answers_ofReply (input : Json) (reply : Reply) :
    (ofReply input reply).Answers reply := by
  cases reply with
  | ok v => exact ⟨rfl, rfl, rfl⟩
  | error e => exact ⟨rfl, rfl, rfl⟩

theorem Task.Recorded.logged {task : Task} {calls : List (Call × Reply)} {r : StepResult}
    (h : Task.Recorded scene task calls r) :
    List.Forall₂ Logged calls (Chain.taskAudit scene (task, r)) := by
  rw [Chain.taskAudit]
  cases h with
  | called reply hc =>
    rw [StepResult.input_ofReply, hc]
    exact .cons ⟨rfl, StepResult.answers_ofReply _ reply⟩ .nil
  | refused message hkey hnone =>
    rw [StepResult.input_fail, Task.recordedCall?_refused hkey hnone]
    exact .nil
  | answered settings output => exact .nil

/-- Calls are what is read off the records that recount them. -/
theorem Recounts.logged {records : List (Task × StepResult)} {calls : List (Call × Reply)}
    (h : Recounts scene records calls) :
    List.Forall₂ Logged calls (records.flatMap (Chain.taskAudit scene)) := by
  induction h with
  | nil => exact .nil
  | cons hrecorded _ ih =>
    rw [List.flatMap_cons]
    exact List.rel_append hrecorded.logged ih

/-- Each of the records is one that its task can leave. -/
theorem Recounts.exists_recorded {records : List (Task × StepResult)}
    {calls : List (Call × Reply)} (h : Recounts scene records calls) :
    ∀ record ∈ records, ∃ own, Task.Recorded scene record.1 own record.2 := by
  induction h with
  | nil => exact List.forall_mem_nil _
  | cons hrecorded _ ih => exact List.forall_mem_cons.mpr ⟨⟨_, hrecorded⟩, ih⟩

namespace Job

variable {generated : String} {document : Json} {job : Job}

/-- **The trace is a complete log.** The calls of a run are those read off its trace, in
the same order, and each record that stands for a call says what the call answered. Every
record of code and of an integration stands for one, and so does every record of a task on
the store whose recorded key is of use. -/
theorem calls_logged (h : ofJson generated document = .ok job) (ex : Executors σ) (s : σ)
    (startedAt : Timestamp) (durationMs : Nat) :
    let chain := job.flow.trigger.chain
    let trace := (job.report ex s startedAt durationMs).1.trace
    let log := chain.audit job.scene trace
    (job.process.calls ex s).map (·.1) = log.map (·.1) ∧
      List.Forall₂ (fun reply r => r.Answers reply) ((job.process.calls ex s).map (·.2))
        (log.map (·.2)) ∧
      ∀ record ∈ chain.taskRecords trace, record.1.TellsCall job.scene record.2.input := by
  have hrecounts := recounts h ex s startedAt durationMs
  have hlogged := hrecounts.logged
  intro chain trace log
  refine ⟨?_, ?_, fun record hrecord => ?_⟩
  · rw [← List.forall₂_eq_eq_eq, List.forall₂_map_left_iff, List.forall₂_map_right_iff]
    exact hlogged.imp fun _ _ hboth => hboth.1
  · rw [List.forall₂_map_left_iff, List.forall₂_map_right_iff]
    exact hlogged.imp fun _ _ hboth => hboth.2
  · obtain ⟨own, hrecorded⟩ := hrecounts.exists_recorded record hrecord
    exact hrecorded.tellsCall

/-- Three cells are called for, and none after the one that fails. -/
theorem calls_logged_grid :
    ofJson "run-1" Grid.document = .ok (Grid.job "run-1") ∧
      let calls := (Grid.job "run-1").process.calls Grid.script.executors ⟨[], []⟩
      let report := ((Grid.job "run-1").report Grid.script.executors ⟨[], []⟩ ⟨0, 0⟩ 0).1
      let log := Grid.chain.audit (Grid.job "run-1").scene report.trace
      calls.map (·.1) = log.map (·.1) ∧
        List.Forall₂ (fun reply r => r.Answers reply) (calls.map (·.2)) (log.map (·.2)) ∧
        (∀ record ∈ Grid.chain.taskRecords report.trace,
          record.1.TellsCall (Grid.job "run-1").scene record.2.input) ∧
        log.map (·.1) =
          [.code "checker" (.nat 1), .code "checker" (.nat 2), .code "checker" (.nat 3)] := by
  obtain ⟨hcalls, hanswers, htells⟩ :=
    calls_logged (Grid.accepted "run-1") Grid.script.executors ⟨[], []⟩ ⟨0, 0⟩ 0
  exact ⟨Grid.accepted "run-1", hcalls, hanswers, htells, by decide +kernel⟩

/-- Numbers and texts are keys alike, and the read that fails is a call like the others. -/
example : ((Ledger.job "run-1" .flow).process.calls Ledger.script.executors ⟨[], []⟩).map (·.1) =
    [.put "runs/run-1/1" (.nat 5), .get "runs/run-1/1", .put "runs/run-1/2" (.nat 7),
      .get "runs/run-1/1", .get "flows/default/total"] := by
  decide +kernel

end Job
end Stepwise

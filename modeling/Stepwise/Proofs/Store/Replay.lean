/-
# Replaying the store from a trace

The records of a run tell what it did to the store. Each record of a storage step that
succeeded says which key was read or written, and with which value; what was read is what
the writes recorded before it leave of what the store held at first, and in the end the
store holds what all of them leave of it. So what the store held before a run and the
trace of the run are enough to know every value the store has had.

Key definitions: `recordedWrite?`, `recordedWrites`, `Replays`.
Key theorems: `Recounts.writesOf_eq`, `Job.store_replays`.
-/
import Stepwise.Proofs.Run.Records
import Stepwise.Proofs.Store.Content

namespace Stepwise

variable {scene : Scene} {σ : Type}

/-- The write that the record of a task says it has made: a task that failed has made none. -/
def recordedWrite? (scene : Scene) (record : Task × StepResult) : Option (String × Json) :=
  if record.2.isFailed then none
  else match record.1.recordedCall? scene record.2.input with
    | some (.put key value) => some (key, value)
    | _ => none

/-- The writes that records say were made, in order. -/
def recordedWrites (scene : Scene) (records : List (Task × StepResult)) : List (String × Json) :=
  records.filterMap (recordedWrite? scene)

/-- The records take what the store held at first to what it holds in the end, and they
show what was read on the way. -/
structure Replays (scene : Scene) (records : List (Task × StepResult)) (first last : Store) :
    Prop where
  last_eq : last = first.overwrite (recordedWrites scene records)
  /-- A storage step that succeeded has read what the writes before it left, null if that is
  nothing, or it has written. Its record says which, and under which key. -/
  succeeded : ∀ before settings r after, records = before ++ (.storage settings, r) :: after →
    r.status = .succeeded →
      (∃ key, (Task.storage settings).recordedCall? scene r.input = some (.get key) ∧
        r.output = .value ((first.overwrite (recordedWrites scene before) key).getD .null)) ∨
      ∃ key value, (Task.storage settings).recordedCall? scene r.input = some (.put key value) ∧
        r.output = .value value

/-- The write of a task is the one that its record says. -/
theorem Task.Recorded.writesOf_eq {task : Task} {calls : List (Call × Reply)} {r : StepResult}
    (h : Task.Recorded scene task calls r) :
    writesOf calls = (recordedWrite? scene (task, r)).toList := by
  cases h with
  | @called _ input c reply hc =>
    rw [writesOf_cons, recordedWrite?]
    cases reply with
    | error e =>
      have hfailed : (StepResult.ofReply input (.error e)).isFailed = true := rfl
      rw [if_pos hfailed]
      cases c <;> rfl
    | ok v =>
      have hfailed : (StepResult.ofReply input (.ok v)).isFailed = false := rfl
      have hinput : (StepResult.ofReply input (.ok v)).input = input := rfl
      rw [if_neg (by simp [hfailed]), hinput, hc]
      cases c <;> rfl
  | @refused _ input _ message _ _ =>
    have hfailed : (StepResult.fail input message).isFailed = true := rfl
    rw [recordedWrite?, if_pos hfailed]
    rfl
  | answered settings output => rfl

/-- What calls have written is what their records say. -/
theorem Recounts.writesOf_eq {records : List (Task × StepResult)} {calls : List (Call × Reply)}
    (h : Recounts scene records calls) : writesOf calls = recordedWrites scene records := by
  induction h with
  | nil => rfl
  | @cons task r own calls records hrecorded _ ih =>
    rw [writesOf_append, hrecorded.writesOf_eq, ih, recordedWrites, recordedWrites,
      List.filterMap_cons]
    cases recordedWrite? scene (task, r) <;> rfl

/-- A storage step that succeeded has made the one call that its record says, and recorded
what it was answered. -/
theorem Task.Recorded.of_succeeded {settings : StorageSettings} {calls : List (Call × Reply)}
    {r : StepResult} (h : Task.Recorded scene (.storage settings) calls r)
    (hr : r.status = .succeeded) :
    ∃ c found, calls = [(c, .ok found)] ∧ r.output = .value (found.getD .null) ∧
      (Task.storage settings).recordedCall? scene r.input = some c := by
  cases h with
  | @called _ input c reply hc =>
    cases reply with
    | error e => cases hr
    | ok found => exact ⟨c, found, rfl, rfl, hc⟩
  | refused message _ _ => cases hr

/-- A call of a storage step reads or writes. -/
theorem Task.recordedCall?_storage_cases {settings : StorageSettings} {input : Json} {c : Call}
    (h : (Task.storage settings).recordedCall? scene input = some c) :
    (∃ key, c = .get key) ∨ ∃ key value, c = .put key value := by
  simp only [recordedCall?, bind, Option.bind_eq_some_iff] at h
  obtain ⟨key, -, scope, -, operation, -, hc⟩ := h
  cases operation with
  | get => exact .inl ⟨_, (Option.some.inj hc).symm⟩
  | put => exact .inr ⟨_, _, (Option.some.inj hc).symm⟩

/-- Where the calls of a run are recounted by records, the records replay the store. -/
theorem Recounts.replays {α : Type} {ex : Executors σ} {content : σ → Store}
    {fails : String → Prop} (hkeeps : ex.KeepsStore content fails) {p : Process α} {s : σ}
    {records : List (Task × StepResult)} (h : Recounts scene records (p.calls ex s)) :
    Replays scene records (content s) (content (p.run ex s).2) := by
  refine ⟨?_, ?_⟩
  · rw [hkeeps.content_run, h.writesOf_eq]
  · rintro before settings r after rfl hr
    obtain ⟨earlier, later, hcalls, hbefore, hafter⟩ := h.exists_of_append
    cases hafter with
    | @cons _ _ own rest _ hrecorded _ =>
      obtain ⟨c, found, rfl, houtput, hc⟩ := hrecorded.of_succeeded hr
      obtain ⟨s', hreply, hcontent⟩ := hkeeps.state_of_calls hcalls
      rw [hbefore.writesOf_eq] at hcontent
      rcases Task.recordedCall?_storage_cases hc with ⟨key, rfl⟩ | ⟨key, value, rfl⟩
      · refine .inl ⟨key, hc, ?_⟩
        rw [houtput, hkeeps.eq_of_answer_get hreply, hcontent]
      · refine .inr ⟨key, value, hc, ?_⟩
        rw [houtput, hkeeps.eq_of_answer_put hreply]
        rfl

/-- **The store can be replayed from the trace.** For every job that is accepted and all
executors that keep a store, whatever it holds at first and whichever keys fail, the records
in the trace take it to what it holds in the end. -/
theorem Job.store_replays {generated : String} {document : Json} {job : Job}
    (h : ofJson generated document = .ok job) {ex : Executors σ} {content : σ → Store}
    {fails : String → Prop} (hkeeps : ex.KeepsStore content fails) (s : σ)
    (startedAt : Timestamp) (durationMs : Nat) :
    let reported := job.report ex s startedAt durationMs
    Replays job.scene (job.flow.trigger.chain.taskRecords reported.1.trace) (content s)
      (content reported.2) :=
  (recounts h ex s startedAt durationMs).replays hkeeps

theorem Job.store_replays_ledger :
    let s : Script.State := ⟨[], [("runs/run-1/1", .nat 3)]⟩
    let job := Ledger.job "run-1" .flow
    let reported := job.report Ledger.script.executors s ⟨0, 0⟩ 0
    ofJson "run-2" (Ledger.document "run-1" .flow) = .ok job ∧
      Ledger.script.executors.KeepsStore (fun s => Named.get? s.store)
        (fun key => (Named.get? Ledger.script.storeErrors key).isSome = true) ∧
      Replays job.scene ((Ledger.chain .flow).taskRecords reported.1.trace)
        (Named.get? s.store) (Named.get? reported.2.store) :=
  ⟨Ledger.accepted "run-2" "run-1" .flow, Ledger.script.keepsStore,
    store_replays (Ledger.accepted "run-2" "run-1" .flow) Ledger.script.keepsStore
      ⟨[], [("runs/run-1/1", .nat 3)]⟩ ⟨0, 0⟩ 0⟩

/-- The amount of the second day is new, that of the first is another one, and the read that
failed has changed nothing. -/
example :
    ((Ledger.job "run-1" .flow).report Ledger.script.executors
      ⟨[], [("runs/run-1/1", .nat 3)]⟩ ⟨0, 0⟩ 0).2.store =
        [("runs/run-1/1", .nat 5), ("runs/run-1/2", .nat 7)] := by decide +kernel

end Stepwise

/-
# The records of tasks in order

The records of the tasks of a run are read off its trace entry after entry, and in the
record of a loop iteration after iteration. That is the order in which the tasks ran: the
calls of the run are those of these records, one after the other, and each record says of
its own calls what a task can record.

Key definitions: `Chain.taskRecords`, `Recounts`.
Key theorems: `Chain.Leaves.recounts`, `Job.recounts`.
-/
import Stepwise.Proofs.Run.Shape

namespace Stepwise

variable {scene : Scene} {σ : Type}

namespace Chain

/-- The records of tasks in what is recorded for a step of the chain, each with its task.
What is recorded under a name that no step of the chain has holds none. -/
def taskRecordsIn : Chain → String × StepResult → List (Task × StepResult)
  | .nil, _ => []
  | .step label task rest, e =>
    if label.name = e.1 then [(task, e.2)] else taskRecordsIn rest e
  | .loop label _ body rest, e =>
    if label.name = e.1 then
      match e.2.loop? with
      | some summary => summary.iterations.flatMap (·.flatMap (taskRecordsIn body))
      | none => []
    else taskRecordsIn rest e

/-- The records of tasks in a scope of the chain, in order of execution. -/
def taskRecords (chain : Chain) (scope : Scope) : List (Task × StepResult) :=
  scope.flatMap chain.taskRecordsIn

/-- A name that no step of the chain has. -/
theorem taskRecordsIn_of_not_mem {e : String × StepResult} : ∀ {chain : Chain},
    e.1 ∉ chain.names → chain.taskRecordsIn e = []
  | .nil, _ => rfl
  | .step _ _ _, h => by
    rw [names_step, List.mem_cons, not_or] at h
    rw [taskRecordsIn, if_neg (Ne.symm h.1), taskRecordsIn_of_not_mem h.2]
  | .loop _ _ _ _, h => by
    rw [names_loop, List.mem_cons, not_or] at h
    rw [taskRecordsIn, if_neg (Ne.symm h.1), taskRecordsIn_of_not_mem h.2]

end Chain

/-- The calls are those of the records, one record after the other. -/
inductive Recounts (scene : Scene) : List (Task × StepResult) → List (Call × Reply) → Prop where
  | nil : Recounts scene [] []
  | cons {task : Task} {r : StepResult} {own calls : List (Call × Reply)}
      {records : List (Task × StepResult)} (h : Task.Recorded scene task own r)
      (hrest : Recounts scene records calls) :
    Recounts scene ((task, r) :: records) (own ++ calls)

namespace Recounts

variable {records more : List (Task × StepResult)} {calls added : List (Call × Reply)}

theorem append (h : Recounts scene records calls) (h' : Recounts scene more added) :
    Recounts scene (records ++ more) (calls ++ added) := by
  induction h with
  | nil => exact h'
  | cons hrecorded _ ih =>
    rw [List.append_assoc]
    exact .cons hrecorded ih

/-- Where the records are parted, so are the calls. -/
theorem exists_of_append : ∀ {records : List (Task × StepResult)} {calls : List (Call × Reply)},
    Recounts scene (records ++ more) calls →
      ∃ before after, calls = before ++ after ∧ Recounts scene records before ∧
        Recounts scene more after
  | [], calls, h => ⟨[], calls, rfl, .nil, h⟩
  | _ :: _, _, @cons _ _ _ own _ _ hrecorded hrest => by
    obtain ⟨before, after, rfl, hbefore, hafter⟩ := exists_of_append hrest
    exact ⟨own ++ before, after, by rw [List.append_assoc], .cons hrecorded hbefore, hafter⟩

end Recounts

/-- The calls of a step and of what follows it, recounted by their records. -/
theorem Account.Begins.recounts {name : String} {calls : List (Call × Reply)} {r : StepResult}
    {allowed : Account → Prop} {read : String × StepResult → List (Task × StepResult)}
    {a : Account} (h : Account.Begins name calls r allowed a)
    (hfirst : Recounts scene (read (name, r)) calls)
    (hrest : ∀ b, allowed b → Recounts scene (b.entries.flatMap read) b.calls) :
    Recounts scene (a.entries.flatMap read) a.calls := by
  cases h with
  | failed _ =>
    rw [List.flatMap_cons, List.flatMap_nil, List.append_nil]
    exact hfirst
  | succeeded _ hb =>
    rw [List.flatMap_cons]
    exact hfirst.append (hrest _ hb)

namespace Loop

variable {body : Account → Prop} {read : String × StepResult → List (Task × StepResult)}
  {calls : List (Call × Reply)}

/-- The induction is on the iterations, each of which left what the body leaves. -/
theorem Iterated.recounts
    (hbody : ∀ a, body a → Recounts scene (a.entries.flatMap read) a.calls)
    {items : List Json} {failure : Option String} {scopes : List Scope}
    (h : Iterated body items failure scopes calls) :
    Recounts scene (scopes.flatMap (·.flatMap read)) calls := by
  induction h with
  | finished => exact .nil
  | completed ha _ _ ih =>
    rw [List.flatMap_cons]
    exact (hbody _ ha).append ih
  | stopped ha _ _ _ =>
    rw [List.flatMap_cons, List.flatMap_nil, List.append_nil]
    exact hbody _ ha

theorem Recorded.recounts
    (hbody : ∀ a, body a → Recounts scene (a.entries.flatMap read) a.calls)
    {r : StepResult} (h : Recorded body calls r) :
    Recounts scene (match r.loop? with
      | some summary => summary.iterations.flatMap (·.flatMap read)
      | none => []) calls := by
  cases h with
  | refused _ => exact .nil
  | iterated h =>
    rw [StepResult.loop?_ofLoop]
    exact h.recounts hbody

end Loop

namespace Chain

/-- Past the first step, records are read as for the rest of the chain. -/
theorem Leaves.flatMap_taskRecordsIn {name : String} {rest : Chain} {a : Account}
    {read : String × StepResult → List (Task × StepResult)} (h : rest.Leaves scene a)
    (hname : name ∉ rest.names) (hread : ∀ e, name ≠ e.1 → read e = rest.taskRecordsIn e) :
    a.entries.flatMap read = rest.taskRecords a.entries := by
  refine List.flatMap_congr fun e he => hread e fun heq => ?_
  have hmem : e.1 ∈ Named.names a.entries := List.mem_map_of_mem he
  exact hname (heq ▸ h.runs.names_prefix.subset hmem)

/-- What a chain has called is recounted by the records that it leaves. -/
theorem Leaves.recounts : ∀ {chain : Chain} {a : Account}, chain.NamesApart →
    chain.Leaves scene a → Recounts scene (chain.taskRecords a.entries) a.calls
  | .nil, _, _, rfl => .nil
  | .step label task rest, _, hapart, ⟨calls, r, hrecorded, hbegins⟩ => by
    refine hbegins.recounts ?_ fun b hb => ?_
    · rw [taskRecordsIn, if_pos rfl, ← List.append_nil calls]
      exact .cons hrecorded .nil
    · rw [hb.flatMap_taskRecordsIn hapart.1 fun e hne => by rw [taskRecordsIn, if_neg hne]]
      exact recounts hapart.2 hb
  | .loop label settings body rest, _, hapart, ⟨_, r, hrecorded, hbegins⟩ => by
    refine hbegins.recounts ?_ fun b hb => ?_
    · rw [taskRecordsIn, if_pos rfl]
      exact hrecorded.recounts fun c hc => recounts hapart.2.1 hc
    · rw [hb.flatMap_taskRecordsIn hapart.1 fun e hne => by rw [taskRecordsIn, if_neg hne]]
      exact recounts hapart.2.2 hb

end Chain

/-- The calls of a run of an accepted job are recounted by the records in its trace. -/
theorem Job.recounts {generated : String} {document : Json} {job : Job}
    (h : ofJson generated document = .ok job) (ex : Executors σ) (s : σ)
    (startedAt : Timestamp) (durationMs : Nat) :
    Recounts job.scene
      (job.flow.trigger.chain.taskRecords (job.report ex s startedAt durationMs).1.trace)
      (job.process.calls ex s) := by
  obtain ⟨a, hleaves, -, hcalls, hreport⟩ := report_leaves h ex s startedAt durationMs
  have htrigger : job.flow.trigger.chain.taskRecordsIn (triggerStep, job.seed) = [] :=
    Chain.taskRecordsIn_of_not_mem (trigger_not_mem h)
  have hrecords :
      job.flow.trigger.chain.taskRecords (job.report ex s startedAt durationMs).1.trace =
        job.flow.trigger.chain.taskRecords a.entries := by
    simp only [hreport, conclude, Report.ofTrace, Chain.taskRecords, List.flatMap_cons, htrigger,
      List.nil_append]
  rw [hrecords, hcalls]
  exact hleaves.recounts (namesApart h)

end Stepwise

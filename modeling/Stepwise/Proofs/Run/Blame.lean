/-
# The step that a report blames

A report looks for the first failed step of the trace, and a loop takes its message from
the first failed step of the iteration that stopped it. Both find the one failure there
is: no scope holds more than one failed step, and the message goes up from the innermost
of them unchanged. A message stands exactly in the records of failed steps, so none has to
be made up, and a run takes no branch for a state that it is never in.

Key definitions: `StepResult.innermost?`, `Report.Blames`.
Key theorems: `StepResult.innermost?_of_loop`, `Chain.Leaves.explained`,
`Chain.Leaves.blamed`, `Job.report_blames`.
-/
import Stepwise.Proofs.Run.Shape

namespace Stepwise

variable {scene : Scene} {σ : Type}

mutual

/-- The record where a failure has come from: that of the failed step in the last iteration
of a loop, and so on as long as that step is a loop itself. -/
def StepResult.innermost? : StepResult → Option StepResult
  | ⟨input, .value v, status, message, duration⟩ =>
    some ⟨input, .value v, status, message, duration⟩
  | ⟨_, .loop ⟨_, _, iterations⟩, _, _, _⟩ => innermostOfLast? iterations

/-- The record where the failure of the last of the iterations has come from. -/
def innermostOfLast? : List (List (String × StepResult)) → Option StepResult
  | [] => none
  | [scope] => innermostOfScope? scope
  | _ :: scope :: rest => innermostOfLast? (scope :: rest)

/-- The record where the failure of an iteration has come from. -/
def innermostOfScope? : List (String × StepResult) → Option StepResult
  | [] => none
  | (_, r) :: rest => if r.isFailed then r.innermost? else innermostOfScope? rest

end

theorem innermostOfScope?_eq : ∀ scope : Scope,
    innermostOfScope? scope = scope.firstFailure?.bind (·.2.innermost?)
  | [] => rfl
  | (name, r) :: rest => by
    have ih := innermostOfScope?_eq rest
    rw [Scope.firstFailure?] at ih ⊢
    cases hf : r.isFailed with
    | true => simp [innermostOfScope?, hf]
    | false => simp [innermostOfScope?, hf, ih]

theorem innermostOfLast?_eq : ∀ scopes : List Scope,
    innermostOfLast? scopes = scopes.getLast?.bind innermostOfScope?
  | [] => rfl
  | [_] => rfl
  | _ :: scope :: rest => by
    rw [innermostOfLast?, innermostOfLast?_eq (scope :: rest), List.getLast?_cons_cons]

namespace StepResult

/-- A record of no loop is where the failure has come from. -/
theorem innermost?_of_step {r : StepResult} (h : r.loop? = none) : r.innermost? = some r := by
  obtain ⟨input, output, status, message, duration⟩ := r
  cases output with
  | value v => rfl
  | loop summary => simp [loop?] at h

/-- From the record of a loop one goes on at the failed step of its last iteration. -/
theorem innermost?_of_loop {r : StepResult} {summary : LoopSummary StepResult}
    (h : r.loop? = some summary) :
    r.innermost? = summary.iterations.getLast?.bind fun scope =>
      (Scope.firstFailure? scope).bind (·.2.innermost?) := by
  obtain ⟨input, output, status, message, duration⟩ := r
  cases output with
  | value v => simp [loop?] at h
  | loop own =>
    simp only [loop?, Option.some.injEq] at h
    subst h
    rw [innermost?, innermostOfLast?_eq]
    exact congrArg (Option.bind _) (funext innermostOfScope?_eq)

/-- If the step failed, its message is that of the innermost failed step. -/
def Traced (r : StepResult) : Prop :=
  r.isFailed = true → ∃ found, r.innermost? = some found ∧ found.loop? = none ∧
    found.isFailed = true ∧ found.message = r.message

theorem traced_of_step {r : StepResult} (h : r.loop? = none) : r.Traced := fun hf =>
  ⟨r, innermost?_of_step h, h, hf, rfl⟩

end StepResult

/-- What holds of the record of a step and of all records of its rest holds of all. -/
theorem Account.Begins.forall_mem {name : String} {calls : List (Call × Reply)}
    {r : StepResult} {allowed : Account → Prop} {a : Account} {P : StepResult → Prop}
    (h : Account.Begins name calls r allowed a) (hr : P r)
    (hrest : ∀ b, allowed b → ∀ e ∈ b.entries, P e.2) : ∀ e ∈ a.entries, P e.2 := by
  cases h with
  | failed _ => exact List.forall_mem_cons.mpr ⟨hr, fun _ he => nomatch he⟩
  | succeeded _ ha => exact List.forall_mem_cons.mpr ⟨hr, hrest _ ha⟩

namespace Loop

theorem Recorded.explained {body : Account → Prop} {calls : List (Call × Reply)}
    {r : StepResult} (h : Recorded body calls r) : r.Explained := by
  cases h with
  | refused _ => exact StepResult.explained_fail ..
  | iterated _ => exact StepResult.explained_ofLoop ..

/-- A loop that stopped early did so in its last iteration, and for the reason that the
failed step there has. -/
theorem Iterated.getLast?_of_failure {body : Account → Prop} {items : List Json}
    {failure : Option String} {scopes : List Scope} {calls : List (Call × Reply)}
    (h : Iterated body items failure scopes calls) (hfailure : failure.isSome = true) :
    ∃ a name r, body a ∧ scopes.getLast? = some a.entries ∧
      Scope.firstFailure? a.entries = some (name, r) ∧ r.message = failure := by
  induction h with
  | finished => contradiction
  | completed _ _ _ ih =>
    obtain ⟨a, name, r, ha, hlast, hr, hm⟩ := ih hfailure
    exact ⟨a, name, r, ha, by simp [List.getLast?_cons, hlast], hr, hm⟩
  | stopped ha _ hr hm => exact ⟨_, _, _, ha, rfl, hr, hm⟩

theorem Recorded.traced {body : Account → Prop} {calls : List (Call × Reply)}
    {r : StepResult} (h : Recorded body calls r)
    (hbody : ∀ a, body a → ∀ e ∈ a.entries, e.2.Traced) : r.Traced := by
  cases h with
  | refused _ => exact StepResult.traced_of_step rfl
  | @iterated items failure scopes _ h =>
    intro hfailure
    rw [StepResult.isFailed_ofLoop] at hfailure
    obtain ⟨a, name, inner, ha, hlast, hinner, hm⟩ := h.getLast?_of_failure hfailure
    obtain ⟨hmem, hfailed⟩ := Scope.mem_of_firstFailure? hinner
    obtain ⟨found, hfound, hl, hff, hmessage⟩ := hbody a ha (name, inner) hmem hfailed
    refine ⟨found, ?_, hl, hff, ?_⟩
    · rw [StepResult.innermost?_of_loop (StepResult.loop?_ofLoop ..)]
      simp [LoopSummary.ofIterations, hlast, hinner, hfound]
    · rw [hmessage, hm, StepResult.message_ofLoop]

end Loop

namespace Chain.Leaves

theorem explained : ∀ {chain : Chain} {a : Account}, chain.Leaves scene a →
    ∀ e ∈ a.entries, e.2.Explained
  | .nil, _, rfl => fun _ he => nomatch he
  | .step _ _ _, _, ⟨_, _, hrecorded, hbegins⟩ =>
    hbegins.forall_mem hrecorded.explained fun _ hb => explained hb
  | .loop _ _ _ _, _, ⟨_, _, hrecorded, hbegins⟩ =>
    hbegins.forall_mem hrecorded.explained fun _ hb => explained hb

/-- The message of every failed step goes back to a step that is no loop. -/
theorem traced : ∀ {chain : Chain} {a : Account}, chain.Leaves scene a →
    ∀ e ∈ a.entries, e.2.Traced
  | .nil, _, rfl => fun _ he => nomatch he
  | .step _ _ _, _, ⟨_, _, hrecorded, hbegins⟩ =>
    hbegins.forall_mem (StepResult.traced_of_step hrecorded.loop?) fun _ hb => traced hb
  | .loop _ _ _ _, _, ⟨_, _, hrecorded, hbegins⟩ =>
    hbegins.forall_mem (hrecorded.traced fun _ hc => traced hc) fun _ hb => traced hb

/-- A chain that stopped early ends in a step whose message is that of the innermost failed
step. -/
theorem blamed {chain : Chain} {a : Account} (h : chain.Leaves scene a)
    (hstopped : a.completed = false) :
    ∃ e found message, a.entries.getLast? = some e ∧ e.2.message = some message ∧
      e.2.innermost? = some found ∧ found.loop? = none ∧ found.status = .failed ∧
      found.message = some message := by
  obtain ⟨e, he, hlast, hfailed⟩ := h.runs.getLast?_of_stopped hstopped
  obtain ⟨found, hfound, hl, hstep, hmessage⟩ := h.traced e he hfailed
  obtain ⟨message, hm⟩ := Option.isSome_iff_exists.mp ((h.explained e he).mp hfailed)
  exact ⟨e, found, message, hlast, hm, hfound, hl, found.isFailed_iff.mp hstep, hmessage.trans hm⟩

end Chain.Leaves

/-! ### The report -/

/-- The error of a report is the one failure of its run, which `completed` says has or has
not run its whole chain. -/
structure Report.Blames (report : Report) (completed : Bool) : Prop where
  error_iff : report.error.isSome = true ↔ report.status = .failed
  failed_iff : report.status = .failed ↔ completed = false
  /-- The error names the last step, and has the message of the innermost failed step. -/
  innermost : ∀ f, report.error = some f →
    ∃ r found, report.trace.getLast? = some (f.stepName, r) ∧ r.innermost? = some found ∧
      found.loop? = none ∧ found.status = .failed ∧ found.message = some f.message
  atMostOne : ∀ path scope, Trace.scope? report.trace path = some scope →
    (scope.filter (·.2.isFailed)).length ≤ 1
  explained : ∀ path scope e, Trace.scope? report.trace path = some scope → e ∈ scope →
    (e.2.status = .failed ↔ e.2.message.isSome = true)

/-- A report is guarded if a chain that stopped has a failed step, and its first failed step
says why. -/
theorem Report.guarded_eq_some {trace : Trace} {completed : Bool}
    (hstopped : Trace.firstFailure? trace = none → completed = true)
    (hwhy : ∀ e, Trace.firstFailure? trace = some e → e.2.message.isSome = true)
    (startedAt : Timestamp) (durationMs : Nat) (response : Option Json) :
    Report.guarded trace completed startedAt durationMs response =
      some (.ofTrace trace completed startedAt durationMs response) := by
  unfold Report.guarded
  cases hfirst : Trace.firstFailure? trace with
  | none => simp [hstopped hfirst]
  | some e => simp [hwhy e hfirst]

namespace Job

variable {generated : String} {document : Json} {job : Job}

/-- The guarded run of a job never gives up. -/
theorem guarded_run (job : Job) (ex : Executors σ) (s : σ) :
    (job.flow.trigger.chain.guarded job.scene [] [(triggerStep, job.seed)]).run ex s =
      (some (job.process.run ex s).1, (job.process.run ex s).2) := by
  obtain ⟨hguarded, -⟩ := Chain.guarded_eq_evaluate job.scene ex job.flow.trigger.chain []
    [(triggerStep, job.seed)] s
  obtain ⟨hrun, -⟩ := (Chain.guards job.flow.trigger.chain [] [(triggerStep, job.seed)]).run ex
    hguarded
  have hprocess : job.process.run ex s = _ := hrun
  rw [hprocess]
  exact hguarded

/-- The report on what the chain of the job left blames the one failure in it. -/
theorem blames_conclude {a : Account} (h : ofJson generated document = .ok job)
    (hleaves : job.flow.trigger.chain.Leaves job.scene a) (startedAt : Timestamp)
    (durationMs : Nat) :
    (job.conclude startedAt durationMs a.completed
      ((triggerStep, job.seed) :: a.entries)).Blames a.completed := by
  have herror := error_conclude job hleaves.runs startedAt durationMs
  have hstatus := status_conclude job hleaves.runs startedAt durationMs
  constructor
  · rw [herror, hstatus]
    cases hleaves.runs <;> simp
  · rw [hstatus]
    cases a.completed <;> simp
  · intro f hf
    rw [herror] at hf
    cases hdone : a.completed with
    | true => simp [hdone] at hf
    | false =>
      obtain ⟨e, found, message, hlast, hm, hfound⟩ := hleaves.blamed hdone
      simp only [hdone, Bool.false_eq_true, if_false, hlast, Option.map_some,
        StepResult.failure, hm, Option.getD_some, Option.some.injEq] at hf
      subst hf
      refine ⟨e.2, found, ?_, hfound⟩
      simp [conclude, Report.ofTrace, List.getLast?_cons, hlast]
  · intro path scope hscope
    obtain ⟨chain, b, -, hb, rfl | ⟨-, rfl⟩⟩ := scope_leaves h hleaves hscope
    · exact hb.runs.length_failed_le
    · exact hb.runs.length_failed_le
  · intro path scope e hscope he
    rw [← StepResult.isFailed_iff]
    obtain ⟨chain, b, -, hb, rfl | ⟨-, rfl⟩⟩ := scope_leaves h hleaves hscope
    · exact hb.explained e he
    · rcases List.mem_cons.mp he with rfl | he
      · exact StepResult.explained_succeed ..
      · exact hb.explained e he

/-- The report on what the chain of the job left makes up neither a step nor a message. -/
theorem guarded_conclude {a : Account} (hleaves : job.flow.trigger.chain.Leaves job.scene a)
    (startedAt : Timestamp) (durationMs : Nat) :
    let trace := (triggerStep, job.seed) :: a.entries
    Report.guarded trace a.completed startedAt durationMs (job.lastResponse trace) =
      some (job.conclude startedAt durationMs a.completed trace) := by
  have hfirst : Trace.firstFailure? ((triggerStep, job.seed) :: a.entries) =
      Scope.firstFailure? a.entries := rfl
  refine Report.guarded_eq_some ?_ ?_ startedAt durationMs _
  · intro hnone
    rw [hfirst, hleaves.runs.firstFailure?] at hnone
    cases hdone : a.completed with
    | true => rfl
    | false =>
      obtain ⟨e, -, hlast, -⟩ := hleaves.runs.getLast?_of_stopped hdone
      simp [hdone, hlast] at hnone
  · intro e he
    obtain ⟨hmem, hfailed⟩ := Scope.mem_of_firstFailure? (hfirst ▸ he)
    exact (hleaves.explained e hmem).mp hfailed

/-- **The error is the one true failure.** A report has an error exactly if its run failed,
which is if the chain stopped early; the error names the last step of the trace and says
what the innermost failed step says. The run takes no branch for a state that it is never
in: its guarded run does not give up. -/
theorem report_blames (h : ofJson generated document = .ok job) (ex : Executors σ) (s : σ)
    (startedAt : Timestamp) (durationMs : Nat) :
    (job.report ex s startedAt durationMs).1.Blames (job.process.run ex s).1.1 ∧
      job.guardedReport ex s startedAt durationMs =
        (some (job.report ex s startedAt durationMs).1,
          (job.report ex s startedAt durationMs).2) := by
  obtain ⟨a, hleaves, hcompleted, -, hreport⟩ := report_leaves h ex s startedAt durationMs
  refine ⟨?_, ?_⟩
  · rw [hreport, hcompleted]
    exact blames_conclude h hleaves startedAt durationMs
  · have htrace : (job.process.run ex s).1.2 = (triggerStep, job.seed) :: a.entries :=
      congrArg Report.trace hreport
    have hguarded := guarded_conclude hleaves startedAt durationMs
    rw [← hcompleted, ← htrace] at hguarded
    rw [guardedReport, guarded_run]
    exact Prod.ext hguarded rfl

theorem report_blames_grid :
    let report := (Grid.job "run-1").report Grid.script.executors ⟨[], []⟩ ⟨0, 0⟩ 0
    ofJson "run-1" Grid.document = .ok (Grid.job "run-1") ∧
      report.1.Blames ((Grid.job "run-1").process.run Grid.script.executors ⟨[], []⟩).1.1 ∧
      (Grid.job "run-1").guardedReport Grid.script.executors ⟨[], []⟩ ⟨0, 0⟩ 0 =
        (some report.1, report.2) :=
  ⟨Grid.accepted "run-1",
    report_blames (Grid.accepted "run-1") Grid.script.executors ⟨[], []⟩ ⟨0, 0⟩ 0⟩

/-- The third cell fails, in the innermost of three scopes. -/
example : ((Grid.job "run-1").report Grid.script.executors ⟨[], []⟩ ⟨0, 0⟩ 0).1.error =
    some ⟨"rows", "no threes"⟩ := by decide +kernel

end Job
end Stepwise

/-
# Reports that are read back

A report is written as a record and read back from its value. Everything in it comes back
but a response that is null: such a response is written, and is read as none. So a reader
cannot tell a run that answered with null from one that gave no answer.

Key definitions: `Trace.Countable`.

Key theorems: `Job.legible_trace`, `Report.decode_written`, `Job.report_reread`.
-/
import Stepwise.Proofs.Run.Blame
import Stepwise.Proofs.Run.Sorted
import Stepwise.Proofs.Trace.Legible

namespace Stepwise

open Json (Slots)

variable {σ : Type}

/-! ### The trace of a run can be read -/

/-- No loop in the trace has more iterations than a machine can count. -/
def Trace.Countable (t : Trace) : Prop :=
  ∀ path name summary, Trace.loop? t path name = some summary →
    summary.iterations.length < 18446744073709551616

/-- The record has no duration, and a loop counts its iterations from the first on. -/
structure StepResult.Counted (r : StepResult) : Prop where
  durationMs : r.durationMs = 0
  currentIteration : ∀ summary, r.loop? = some summary →
    summary.currentIteration = max 1 summary.iterations.length

theorem StepResult.counted_of_value {input v : Json} {status : Status} {message : Option String} :
    Counted ⟨input, .value v, status, message, 0⟩ :=
  ⟨rfl, fun _ h => nomatch h⟩

theorem Task.Recorded.counted {scene : Scene} {task : Task} {calls : List (Call × Reply)}
    {r : StepResult} (h : Task.Recorded scene task calls r) : r.Counted := by
  cases h with
  | called reply _ => cases reply <;> exact StepResult.counted_of_value
  | refused _ _ _ => exact StepResult.counted_of_value
  | answered _ _ => exact StepResult.counted_of_value

theorem Loop.Recorded.counted {body : Account → Prop} {calls : List (Call × Reply)}
    {r : StepResult} (h : Loop.Recorded body calls r) : r.Counted := by
  cases h with
  | refused _ => exact StepResult.counted_of_value
  | @iterated items failure scopes _ _ =>
    refine ⟨by cases failure <;> rfl, fun summary hloop => ?_⟩
    rw [StepResult.loop?_ofLoop, Option.some.injEq] at hloop
    rw [← hloop]
    rfl

theorem Chain.Leaves.counted {scene : Scene} : ∀ {chain : Chain} {a : Account},
    chain.Leaves scene a → ∀ e ∈ a.entries, e.2.Counted
  | .nil, _, rfl => fun _ he => nomatch he
  | .step _ _ _, _, ⟨_, _, hrecorded, hbegins⟩ =>
    hbegins.forall_mem hrecorded.counted fun _ hb => counted hb
  | .loop _ _ _ _, _, ⟨_, _, hrecorded, hbegins⟩ =>
    hbegins.forall_mem hrecorded.counted fun _ hb => counted hb

/-- Of a run of an accepted job every scope can be read, if its loops can be counted. -/
theorem Job.legible_trace {generated : String} {document : Json} {job : Job}
    (h : ofJson generated document = .ok job) (ex : Executors σ) (s : σ) (startedAt : Timestamp)
    (durationMs : Nat)
    (hcount : (job.report ex s startedAt durationMs).1.trace.Countable) :
    (job.report ex s startedAt durationMs).1.trace.Legible := by
  obtain ⟨a, hleaves, -, -, hreport⟩ := report_leaves h ex s startedAt durationMs
  have htrace : (job.report ex s startedAt durationMs).1.trace =
      (triggerStep, job.seed) :: a.entries := congrArg Report.trace hreport
  rw [htrace] at hcount ⊢
  intro path scope hscope
  have hnodup_counted : (Named.names scope).Nodup ∧ ∀ e ∈ scope, e.2.Counted := by
    obtain ⟨chain, b, hinner, hb, hentries⟩ := scope_leaves h hleaves hscope
    have hnodup : (Named.names b.entries).Nodup :=
      ((namesApart h).of_inner? path hinner).nodup.sublist hb.runs.names_prefix.sublist
    rcases hentries with rfl | ⟨rfl, rfl⟩
    · exact ⟨hnodup, hb.counted⟩
    · rw [Chain.inner?, Option.some.injEq] at hinner
      subst hinner
      exact ⟨List.nodup_cons.mpr ⟨trigger_not_mem_entries h hb, hnodup⟩,
        List.forall_mem_cons.mpr ⟨StepResult.counted_of_value, hb.counted⟩⟩
  obtain ⟨hnodup, hcounted⟩ := hnodup_counted
  refine ⟨hnodup, fun e he => ⟨?_, fun summary hloop => ?_⟩⟩
  · rw [(hcounted e he).durationMs]
    decide
  · have hfound : Trace.loop? ((triggerStep, job.seed) :: a.entries) path e.1 = some summary := by
      rw [Trace.loop?, Trace.getExact?, hscope, Option.bind_some, Named.get?_of_mem hnodup he,
        Option.bind_some, hloop]
    have hlength := hcount path e.1 summary hfound
    rw [(hcounted e he).currentIteration summary hloop]
    omega

/-! ### The record of a report -/

theorem Failure.written_ne_null (f : Failure) : f.written ≠ .null := nofun

theorem Failure.decode_written (f : Failure) : decode .value f.written.canonical = .ok f := by
  obtain ⟨slots, hslots, hspoilt, hholds⟩ := Slots.exists_of_canonical
    [("stepName", .str f.stepName), ("message", .str f.message)] (by simp [Named.names])
    "ExecutionError" ["stepName", "message"]
  have hstep := Slots.required_string (hholds 0 "stepName" rfl) "stepName"
  have hmessage := Slots.required_string (hholds 1 "message" rfl) "message"
  rw [decode, written, hslots]
  simp only [bind, Except.bind, hstep, hmessage, Json.both, Slots.finish_ok hspoilt]

namespace Report

/-- The fields of a report, found by their names. -/
theorem exists_written (r : Report) : ∃ fields, r.written = .obj fields ∧
    (Named.names fields).Nodup ∧ Named.get? fields "status" = some (.str r.status.word) ∧
      Named.get? fields "executionState" = some (Trace.written r.trace) ∧
      Named.get? fields "durationMs" = some (.nat r.durationMs) ∧
      Named.get? fields "startedAt" = some (.str r.startedAt.text) ∧
      Named.get? fields "response" = r.response ∧
      Named.get? fields "error" = r.error.map Failure.written := by
  obtain ⟨status, trace, durationMs, startedAt, response, error⟩ := r
  refine ⟨_, rfl, ?_⟩
  cases response <;> cases error <;>
    exact ⟨by simp [Named.names], rfl, rfl, rfl, rfl, rfl, rfl⟩

/-- A report whose trace and time can be read is read back from its value. Everything in it is
as it was, but a null response counts as none. -/
theorem decode_written {r : Report} {back : Trace}
    (htrace : Trace.decode .value r.trace.value = .ok back)
    (hduration : r.durationMs < 18446744073709551616)
    (htime : Timestamp.read r.startedAt.text = .ok r.startedAt) :
    decode .value r.written.canonical = .ok { r with
      trace := back
      response := (r.response.filter (· ≠ .null)).map Json.canonical } := by
  obtain ⟨fields, hfields, hnodup, hget⟩ := r.exists_written
  obtain ⟨hstatus, hstate, hdurationMs, hstartedAt, hresponse, herror⟩ := hget
  obtain ⟨slots, hslots, hspoilt, hholds⟩ := Slots.exists_of_canonical fields hnodup
    "ExecutionOutput" ["status", "executionState", "durationMs", "startedAt", "response", "error"]
  have h0 := Slots.required_ok (hstatus ▸ hholds 0 "status" rfl)
    (Status.decode_word r.status) "status"
  have h1 := Slots.required_ok (hstate ▸ hholds 1 "executionState" rfl) htrace "executionState"
  have h2 := Slots.required_ok (hdurationMs ▸ hholds 2 "durationMs" rfl)
    (Json.decodeNat_nat "u64" hduration) "durationMs"
  have hread : decodeTime (.str r.startedAt.text) = .ok r.startedAt := by
    rw [decodeTime, htime]
  have h3 := Slots.required_ok (hstartedAt ▸ hholds 3 "startedAt" rfl) hread "startedAt"
  have h4 := Slots.withDefault_option (hresponse ▸ hholds 4 "response" rfl)
  have h5 := Slots.withDefault_written Failure.written_ne_null Failure.decode_written
    (herror ▸ hholds 5 "error" rfl)
  rw [decode, hfields, hslots]
  simp only [bind, Except.bind, h0, h1, h2, h3, h4, h5, Json.both, Slots.finish_ok hspoilt]

end Report

/-! ### The report of a run -/

/-- What is there again when a report has been read back. -/
structure Report.ComesBackAs (r back : Report) : Prop where
  status : back.status = r.status
  durationMs : back.durationMs = r.durationMs
  startedAt : back.startedAt = r.startedAt
  error : back.error = r.error
  response : back.response = (r.response.filter (· ≠ .null)).map Json.canonical

/-- **A report comes back, but for a null response.** The report of a run of an accepted job is
read back from its value, whatever the run has left in its trace. The status, the time, the
duration and the failure are as they were. The response is there again unless it was null:
then it is missing, as if there had been none. As long as the replies in the run are sorted,
so is the response, and it comes back as it was. -/
theorem Job.report_reread {generated : String} {document : Json} {job : Job}
    (h : ofJson generated document = .ok job) (ex : Executors σ) (s : σ) {startedAt : Timestamp}
    (htime : Timestamp.read startedAt.text = .ok startedAt) {durationMs : Nat}
    (hduration : durationMs < 18446744073709551616)
    (hcount : (job.report ex s startedAt durationMs).1.trace.Countable) :
    let report := (job.report ex s startedAt durationMs).1
    ∃ back, Report.decode .value report.written.canonical = .ok back ∧ report.ComesBackAs back ∧
      ((∀ e ∈ job.process.calls ex s, Reply.Sorted e.2) →
        back.response = report.response.filter (· ≠ .null)) := by
  obtain ⟨back, htrace⟩ := (legible_trace h ex s startedAt durationMs hcount).exists_decode
  have hread := Report.decode_written (r := (job.report ex s startedAt durationMs).1) htrace
    hduration htime
  refine ⟨_, hread, ⟨rfl, rfl, rfl, rfl, rfl⟩, fun hreplies => ?_⟩
  exact Json.map_canonical_filter fun v hv => sorted_response h hreplies hv

/-! ### An answer of null -/

/-- Without a loop there is nothing to count. -/
theorem Trace.countable_of_steps {t : Trace} (h : ∀ e ∈ t, e.2.loop? = none) : t.Countable := by
  intro path name summary hloop
  obtain ⟨r, hr, hsummary⟩ := Option.bind_eq_some_iff.mp hloop
  obtain ⟨scope, hscope, hget⟩ := Option.bind_eq_some_iff.mp hr
  cases path with
  | nil =>
    cases hscope
    rw [h _ (Named.mem_of_get? hget)] at hsummary
    contradiction
  | cons frame rest =>
    obtain ⟨inner, hinner, -⟩ := Option.bind_eq_some_iff.mp hscope
    obtain ⟨loop, outer, hfound, houter, -⟩ := Scope.inner?_eq_some.mp hinner
    rw [h _ (Named.mem_of_get? hfound)] at houter
    contradiction

namespace Muted

/-- The output of a response: null if it is muted, or else a text. -/
def output (muted : Bool) : Json := if muted then .null else .str "done"

def reply (muted : Bool) : Json :=
  .obj [("kind", .str "Response"), ("name", .str "reply"),
    ("settings", .obj [("output", output muted)])]

def flow (muted : Bool) : Json := .obj [("trigger", .obj [("nextAction", reply muted)])]

/-- The document of a flow that does nothing but answer. -/
def document (muted : Bool) : Json := .obj [("flow", flow muted)]

def chain (muted : Bool) : Chain :=
  .step ⟨"reply", none⟩ (.response ⟨output muted⟩) .nil

def job (muted : Bool) : Job :=
  ⟨"run-1", "default", none, [], .null, ⟨.empty, .empty, chain muted⟩⟩

theorem accepted (muted : Bool) : Job.ofJson "run-1" (document muted) = .ok (job muted) := by
  have hchain : Chain.build (reply muted) = .ok (chain muted) := by
    cases muted <;> exact Chain.build_task rfl rfl
  have hunchecked : Flow.buildUnchecked (flow muted) = .ok ⟨.empty, .empty, chain muted⟩ := by
    show Except.bind (Except.bind (Chain.build (reply muted)) _) _ = _
    rw [hchain]
    rfl
  have hflow : Flow.build (flow muted) = .ok ⟨.empty, .empty, chain muted⟩ :=
    Flow.build_of_check hunchecked (by cases muted <;> rfl)
  cases muted <;>
  · show Except.bind (Flow.build (flow _)) _ = _
    rw [hflow]
    rfl

/-- A run that answers with null succeeds with a response, and what is read back from its
report has none. -/
theorem response_lost :
    Job.ofJson "run-1" (document true) = .ok (job true) ∧
      let report := ((job true).report Grid.strict () ⟨0, 0⟩ 0).1
      report.status = .succeeded ∧ report.response = some .null ∧
        (Report.decode .value report.written.canonical).toOption.map (·.response) =
          some none := by
  refine ⟨accepted true, ?_⟩
  decide +kernel

end Muted

theorem Job.report_reread_muted :
    Timestamp.read (Timestamp.mk 0 0).text = .ok ⟨0, 0⟩ ∧
      let report := ((Muted.job false).report Grid.strict () ⟨0, 0⟩ 0).1
      report.trace.Countable ∧
        ∃ back, Report.decode .value report.written.canonical = .ok back ∧
          back.status = .succeeded ∧ back.response = some (.str "done") := by
  have htime : Timestamp.read (Timestamp.mk 0 0).text = .ok ⟨0, 0⟩ := by decide +kernel
  have hcount : ((Muted.job false).report Grid.strict () ⟨0, 0⟩ 0).1.trace.Countable :=
    Trace.countable_of_steps (by decide +kernel)
  obtain ⟨back, hread, hback, hresponse⟩ :=
    report_reread (Muted.accepted false) Grid.strict () htime (by decide) hcount
  refine ⟨htime, hcount, back, hread, hback.status, ?_⟩
  exact hresponse (List.forall_mem_nil _)

end Stepwise

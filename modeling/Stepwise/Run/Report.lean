/-
# Reports of runs

A run ends with a report: its status, the trace, when it started and how long it took,
what it answered and, if it failed, the step that is to blame. A job that cannot be
loaded or built has a report as well, with an empty trace.

Key definitions: `Report`, `Report.ofTrace`, `Report.setupFailure`, `Report.written`,
`Report.decode`, `Report.ofDocument`, `Job.process`, `Job.report`, `Job.setUp`.
-/
import Stepwise.Flow.Job
import Stepwise.Run.Chain
import Stepwise.Time.Timestamp
import Stepwise.Trace.Reading

namespace Stepwise

open Json (Source DecodeError Slots)

/-- The one step, or phase, that a run failed at. -/
structure Failure where
  stepName : String
  message : String
  deriving DecidableEq, Repr

/-- What is known of a run when it has ended. -/
structure Report where
  status : Status
  trace : Trace
  durationMs : Nat
  startedAt : Timestamp
  response : Option Json
  error : Option Failure

namespace Failure

/-- A failure as a record. -/
def written (f : Failure) : Json :=
  .obj [("stepName", .str f.stepName), ("message", .str f.message)]

/-- The failure in a record. -/
def decode (source : Source) (v : Json) : Except DecodeError Failure := do
  let s ← Slots.of source "ExecutionError" ["stepName", "message"] v
  s.finish
    (Json.both (s.required 0 "stepName" Json.decodeString)
      (s.required 1 "message" Json.decodeString))
    fun (stepName, message) => ⟨stepName, message⟩

end Failure

namespace Report

/-- The phase in which a job document is read. -/
def loadPhase : String := "load_job"

/-- The phase in which a flow is built. -/
def buildPhase : String := "build_flow"

/-- The failure that a trace shows: its first failed step, or that the chain stopped. -/
def failureOf (trace : Trace) (completed : Bool) : Option Failure :=
  match Trace.firstFailure? trace with
  | some (name, r) => some ⟨name, r.failure name⟩
  | none => if completed then none else some ⟨"", "flow stopped before completing"⟩

/-- The report of a run that has reached its first step. -/
def ofTrace (trace : Trace) (completed : Bool) (startedAt : Timestamp) (durationMs : Nat)
    (response : Option Json) : Report :=
  let error := failureOf trace completed
  { status := if error.isSome then .failed else .succeeded
    trace, durationMs, startedAt, response, error }

/-- The report of a run that has reached no step. -/
def setupFailure (failure : Failure) (startedAt : Timestamp) (durationMs : Nat) : Report :=
  { status := .failed, trace := [], durationMs, startedAt, response := none
    error := some failure }

/-- Whether the run succeeded. -/
def isSuccess (r : Report) : Bool := r.status = .succeeded

/-- What became of the run, in one line unless the message has more. -/
def summary (r : Report) : String :=
  match r.error with
  | none =>
    "SUCCEEDED " ++ toString r.trace.length ++ " steps in " ++ toString r.durationMs ++ "ms"
  | some f => "FAILED at '" ++ f.stepName ++ "': " ++ f.message

/-- A report as a record. -/
def written (r : Report) : Json :=
  .obj <|
    [("status", .str r.status.word), ("executionState", Trace.written r.trace),
      ("durationMs", .nat r.durationMs), ("startedAt", .str r.startedAt.text)] ++
    r.response.toList.map ("response", ·) ++
    r.error.toList.map fun f => ("error", f.written)

/-- The point in time in a string. -/
def decodeTime : Json → Except DecodeError Timestamp
  | .str s =>
    match Timestamp.read s with
    | .ok t => .ok t
    | .error fault => .error (.wrongTime fault.message)
  | v => Json.mismatch v "an RFC 3339 formatted date and time string"

/-- The report in a record. -/
def decode (source : Source) (v : Json) : Except DecodeError Report := do
  let s ← Slots.of source "ExecutionOutput"
    ["status", "executionState", "durationMs", "startedAt", "response", "error"] v
  s.finish
    (Json.both (s.required 0 "status" Status.decode)
      (Json.both (s.required 1 "executionState" (Trace.decode source))
        (Json.both (s.required 2 "durationMs" (Json.decodeNat "u64"))
          (Json.both (s.required 3 "startedAt" decodeTime)
            (Json.both (s.withDefault 4 none (Json.decodeOption Json.decodeValue))
              (s.withDefault 5 none (Json.decodeOption (Failure.decode source))))))))
    fun (status, trace, durationMs, startedAt, response, error) =>
      ⟨status, trace, durationMs, startedAt, response, error⟩

end Report

/-- The step under which the trigger is recorded. -/
def triggerStep : String := "trigger"

namespace Job

/-- What stays the same during a run of the job. -/
def scene (job : Job) : Scene := ⟨job.executionId, job.flowVersionId, job.configs⟩

/-- The record of the trigger. -/
def seed (job : Job) : StepResult := .succeed job.flow.trigger.settings job.payload

/-- A run of the job. The outcome says whether all steps succeeded. -/
def process (job : Job) : Process (Bool × Trace) :=
  job.flow.trigger.chain.run job.scene [] [(triggerStep, job.seed)]

/-- The output of the last top-level response that succeeded. -/
def lastResponse (job : Job) (trace : Trace) : Option Json :=
  let results := job.flow.trigger.chain.topLevel.filterMap fun a =>
    match a.work with
    | .task (.response _) =>
      (Named.get? trace a.label.name).bind fun r => if r.isFailed then none else some r
    | _ => none
  results.getLast?.bind (·.part? [])

/-- The report of a run of the job that has ended. -/
def conclude (job : Job) (startedAt : Timestamp) (durationMs : Nat) (completed : Bool)
    (trace : Trace) : Report :=
  .ofTrace trace completed startedAt durationMs (job.lastResponse trace)

/-- The report of a run of the job against executors, and their state after it. -/
def report {σ : Type} (job : Job) (ex : Executors σ) (s : σ) (startedAt : Timestamp)
    (durationMs : Nat) : Report × σ :=
  let ((completed, trace), s) := job.process.run ex s
  (job.conclude startedAt durationMs completed trace, s)

/-- The identifier of a run that begins at a point in time and has no other. -/
def identifierAt (t : Timestamp) : String := "run-" ++ t.word

/-- The job that a document holds, or the phase that failed. -/
def setUp (generated : String) (document : Except FlowError Json) : Except Failure Job :=
  match document with
  | .error e => .error ⟨Report.loadPhase, e.message⟩
  | .ok v =>
    match ofJson generated v with
    | .error e => .error ⟨Report.buildPhase, e.message⟩
    | .ok job => .ok job

end Job

/-- The report of a run of the job in a document against executors, and their state
after it. -/
def Report.ofDocument {σ : Type} (generated : String) (document : Except FlowError Json)
    (ex : Executors σ) (s : σ) (startedAt : Timestamp) (durationMs : Nat) : Report × σ :=
  match Job.setUp generated document with
  | .error failure => (.setupFailure failure startedAt durationMs, s)
  | .ok job => job.report ex s startedAt durationMs

end Stepwise

/-
# Sessions

A session carries out one command line on a host. It reads the configuration and the job
document, runs the job, writes the report and says in one line what became of the run.
It ends with a code: zero for a run that succeeded, one for a run that failed, and two if
there was no run or its report could not be written.

Key definitions: `Host`, `Host.answer`, `Session.run`, `Session.ofArguments`.
-/
import Stepwise.Executor.Registry
import Stepwise.Files.Tree
import Stepwise.Flow.Document
import Stepwise.Remote.Store
import Stepwise.Run.Report
import Stepwise.Runner.Config
import Stepwise.Runner.Invocation

namespace Stepwise

/-- What a session needs from the world around it. -/
structure Host (m : Type → Type) where
  environment : String → Option String
  /-- The content of a file. -/
  read : String → m (Except FileFault ByteArray)
  /-- Replaces a file. -/
  write : String → String → m (Except FileFault Unit)
  /-- Writes to the output. -/
  say : String → m Unit
  /-- Writes to the log. -/
  note : String → m Unit
  /-- The reply of an artifact in a folder that may run for a time. -/
  execute : String → Duration → String → Json → m (Except CallError Json)
  /-- The response to a request that may take a time. -/
  send : Duration → Request → m (Option Response)
  /-- The point in time. -/
  now : m Timestamp
  /-- Thousandths of a second from some point in the past. -/
  clock : m Nat

/-- The name of the program. -/
def programName : String := "FlowRunner"

/-- The version of the program. -/
def programVersion : String := "0.1.0"

namespace Config

/-- The configuration with what a command line sets. -/
def override (c : Config) (a : Arguments) : Config :=
  { c with
    storageUrl := a.storageUrl.getD c.storageUrl
    artifactsDir := a.artifactsDir.getD c.artifactsDir }

end Config

namespace Host

variable {m : Type → Type} [Monad m]

/-- The reply to a call in a run of a job with a token. No integrations are known. -/
def answer (host : Host m) (config : Config) (token : Option String) : Call → m Reply
  | .code artifact input => do
    return (← host.execute config.artifactsDir config.codeTimeout artifact input).map some
  | .integration name action _ =>
    return (Registry.find ([] : Registry Json) name action).map some
  | .get key =>
    RemoteStore.get ⟨config.storageUrl, token⟩ (host.send config.requestTimeout) key
  | .put key value => do
    let reply ←
      RemoteStore.put ⟨config.storageUrl, token⟩ (host.send config.requestTimeout) key value
    return reply.map some

end Host

namespace Session

variable {m : Type → Type} [Monad m]

/-- The code of a session without a run. -/
def setupCode : Nat := 2

/-- What the log begins with. -/
def banner : String :=
  "\n" ++ programName ++ " v" ++ programVersion ++ "\nFlow Execution Engine\n\n"

/-- The line that warns of a reference to something unknown. -/
def warning (step reference : String) : String :=
  "[WARN] Step '" ++ step ++ "' references unknown value '$\x7b" ++ reference ++ "\x7d'\n"

/-- Ends the session with an error. -/
def giveUp (host : Host m) (message : String) : m Nat := do
  host.note ("\nError: " ++ message ++ "\n")
  return setupCode

/-- Writes a report to a file or to the output. -/
def deliver (host : Host m) (report : Report) : Option String → m (Except FileFault Unit)
  | none => do
    host.say (report.written.pretty ++ "\n")
    return .ok ()
  | some path => host.write path report.written.pretty

/-- Ends the session with a report. -/
def conclude (host : Host m) (output : Option String) (report : Report) (code : Nat) :
    m Nat := do
  match ← deliver host report output with
  | .error fault => giveUp host fault.message
  | .ok () =>
    host.note (report.summary ++ "\n")
    return code

/-- Runs a job and ends the session. -/
def runJob (host : Host m) (config : Config) (output : Option String) (job : Job) : m Nat := do
  for (step, reference) in job.flow.unknownReferences do
    host.note (warning step reference)
  let startedAt ← host.now
  let before ← host.clock
  let (completed, trace) ← job.process.perform (host.answer config job.workerToken)
  let after ← host.clock
  let report := job.conclude startedAt (after - before) completed trace
  conclude host output report (if report.isSuccess then 0 else 1)

/-- Carries out what a command line asks to run. -/
def run (host : Host m) (a : Arguments) : m Nat := do
  host.note banner
  match Config.ofLookup host.environment with
  | .error e => giveUp host e.message
  | .ok config =>
    let startedAt ← host.now
    let before ← host.clock
    match Job.setUp (Job.identifierAt startedAt) (Document.ofFile a.job (← host.read a.job)) with
    | .error failure =>
      let after ← host.clock
      conclude host a.output (.setupFailure failure startedAt (after - before)) setupCode
    | .ok job => runJob host (config.override a) a.output job

/-- Carries out a command line. -/
def ofArguments (host : Host m) (arguments : List String) : m Nat :=
  match Invocation.ofArguments arguments with
  | .error e => do
    host.note e.text
    return setupCode
  | .ok .help => do
    host.say Invocation.usage
    return 0
  | .ok .version => do
    host.say ("flowrunner " ++ programVersion ++ "\n")
    return 0
  | .ok (.run a) => run host a

end Session
end Stepwise

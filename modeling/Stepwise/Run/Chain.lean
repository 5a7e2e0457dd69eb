/-
# Running chains

The steps of a chain run in order, each result being recorded before the next step
starts; the first step that fails ends the chain. A loop resolves its items first and
records that it has begun. For each item it opens a scope in its own record and runs
its body there; the first iteration that fails ends the loop.

Key definitions: `Chain.run`, `Loop.iterate`, `Loop.conclude`, `Work.perform`.
-/
import Stepwise.Run.Step

namespace Stepwise

/-- Changes the summary of a loop recorded at a path, if there is one. -/
def Trace.updateLoop (t : Trace) (path : Path) (name : String)
    (f : LoopSummary StepResult → LoopSummary StepResult) : Option Trace :=
  (Trace.getExact? t path name).bind fun r =>
    r.loop?.bind fun summary => Trace.insert t path name (r.withLoop (f summary))

/-- The summary of a loop recorded at a path. -/
def Trace.loop? (t : Trace) (path : Path) (name : String) : Option (LoopSummary StepResult) :=
  (Trace.getExact? t path name).bind StepResult.loop?

namespace Loop

/-- Why an iteration failed: the message of the first failed step in it. -/
def iterationFailure (t : Trace) (path : Path) (index : Nat) : String :=
  match (Trace.scope? t path).bind Scope.firstFailure? with
  | some (name, r) => r.failure name
  | none => "iteration " ++ toString (index + 1) ++ " failed"

/-- Runs the body for the items from number `index` on. The outcome is the reason for
stopping early, if there is one, and the trace. -/
def iterate (name : String) (path : Path) (body : Path → Trace → Process (Bool × Trace)) :
    Nat → List Json → Trace → Process (Option String × Trace)
  | _, [], t => .done (none, t)
  | index, item :: items, t =>
    match Trace.updateLoop t path name (·.enter index item) with
    | none =>
      .done (some ("loop entry '" ++ name ++ "' missing from trace at " ++ Path.text path), t)
    | some t =>
      let inner := path ++ [(name, index)]
      (body inner t).bind fun (completed, t) =>
        if completed then iterate name path body (index + 1) items t
        else .done (some (iterationFailure t inner index), t)

/-- The result of a loop that has stopped. Its summary is taken out of the trace. -/
def conclude (name : String) (path : Path) (input : Json) (failure : Option String)
    (t : Trace) : StepResult × Trace :=
  (.ofLoop input ((Trace.loop? t path name).getD .initial) failure,
    (Trace.updateLoop t path name fun _ => .initial).getD t)

/-- Runs a loop over what its items resolve to. -/
def perform (name : String) (path : Path) (body : Path → Trace → Process (Bool × Trace))
    (resolved : Json) (t : Trace) : Process (StepResult × Trace) :=
  let input := .obj [("items", resolved)]
  match resolved with
  | .arr items =>
    let t := (Trace.insert t path name (.ofLoop input .initial none)).getD t
    (iterate name path body 0 items t).map fun (failure, t) =>
      conclude name path input failure t
  | v => .done (.fail input ("items must resolve to an array, got " ++ v.sortName), t)

end Loop

namespace Chain

/-- Records a result and goes on, unless the step failed or there is no scope to record
it in. -/
def record (path : Path) (name : String) (r : StepResult) (t : Trace)
    (next : Trace → Process (Bool × Trace)) : Process (Bool × Trace) :=
  match Trace.insert t path name r with
  | none => .done (false, t)
  | some t => if r.isFailed then .done (false, t) else next t

/-- Runs a chain in the scope that a path leads to. The outcome says whether all steps
succeeded. -/
def run (scene : Scene) : Chain → Path → Trace → Process (Bool × Trace)
  | .nil, _, t => .done (true, t)
  | .step label task rest, path, t =>
    .look ⟨path, label.name, t⟩ <|
      (task.perform scene (scene.view path t)).bind fun r =>
        record path label.name r t (run scene rest path)
  | .loop label settings body rest, path, t =>
    .look ⟨path, label.name, t⟩ <|
      (Loop.perform label.name path (run scene body)
        ((scene.view path t).resolve settings.items) t).bind fun (r, t) =>
          record path label.name r t (run scene rest path)

end Chain

/-- What an action does when it is run by itself; its result is not recorded. -/
def Work.perform (scene : Scene) (name : String) (path : Path) (t : Trace) :
    Work → Process (StepResult × Trace)
  | .task once => (once.perform scene (scene.view path t)).map (·, t)
  | .loop settings body =>
    Loop.perform name path (body.run scene) ((scene.view path t).resolve settings.items) t

end Stepwise

/-
# Evaluating chains

What a chain does, said without a trace that is written to: from the scope it runs in and
the scopes around it, a chain evaluates to the scope it leaves, the calls it made, and the
state of the executors after them. A step refers to the bindings of its surroundings. A
loop runs its body once for each item, each time in a new scope with nothing in it, around
which stands the loop's own scope with the summary so far; the summary of the loop is
computed beside that scope and recorded once, at the end.

Key definitions: `Evaluation`, `Chain.evaluate`, `Loop.evaluate`, `Loop.evaluateItems`,
`Task.evaluate`.
-/
import Stepwise.Proofs.Run.Calls
import Stepwise.Proofs.Trace.Enclosure
import Stepwise.Run.Chain

namespace Stepwise

variable {σ : Type}

/-- What a chain evaluates to. -/
structure Evaluation (σ : Type) where
  /-- Whether all steps succeeded. -/
  completed : Bool
  /-- The scope of the chain after it. -/
  scope : Scope
  calls : List (Call × Reply)
  /-- The state of the executors after the calls. -/
  state : σ

/-- What one step evaluates to. -/
structure StepEvaluation (σ : Type) where
  result : StepResult
  calls : List (Call × Reply)
  state : σ

/-- What the items of a loop evaluate to. -/
structure LoopEvaluation (σ : Type) where
  /-- Why the loop stopped early, if it did. -/
  failure : Option String
  summary : LoopSummary StepResult
  calls : List (Call × Reply)
  state : σ

/-- An evaluation after other calls. -/
def Evaluation.after (calls : List (Call × Reply)) (e : Evaluation σ) : Evaluation σ :=
  { e with calls := calls ++ e.calls }

/-- An evaluation after other calls. -/
def LoopEvaluation.after (calls : List (Call × Reply)) (e : LoopEvaluation σ) :
    LoopEvaluation σ :=
  { e with calls := calls ++ e.calls }

/-- What a step in a scope can refer to. -/
def Scene.viewIn (scene : Scene) (around : Surroundings) (scope : Scope) : View :=
  ⟨around.bindings scope, [], scene.configs⟩

/-- Evaluates a task in a scope. -/
def Task.evaluate (scene : Scene) (ex : Executors σ) (task : Task) (around : Surroundings)
    (scope : Scope) (s : σ) : StepEvaluation σ :=
  let p := task.perform scene (scene.viewIn around scope)
  ⟨(p.run ex s).1, p.calls ex s, (p.run ex s).2⟩

namespace LoopSummary

/-- The summary with one more iteration: the item it ran for and what it has recorded. -/
def extend (summary : LoopSummary StepResult) (item : Json) (inner : Scope) :
    LoopSummary StepResult :=
  ⟨summary.iterations.length + 1, some item, summary.iterations ++ [inner]⟩

theorem getElem?_extend (summary : LoopSummary StepResult) (item : Json) (inner : Scope) :
    (summary.extend item inner).iterations[summary.iterations.length]? = some inner := by
  simp [extend]

/-- In the scope of a loop, the iteration that is under way is found in the loop's record. -/
theorem inner?_extend (summary : LoopSummary StepResult) (name : String) (input item : Json)
    (scope inner : Scope) :
    Scope.inner? (Named.put name (.ofLoop input (summary.extend item inner) none) scope)
      (name, summary.iterations.length) = some inner :=
  Scope.inner?_put scope (StepResult.loop?_ofLoop ..) (summary.getElem?_extend item inner)

end LoopSummary

namespace Loop

/-- The scope of a loop while an iteration runs that has just begun. -/
def opened (name : String) (input : Json) (scope : Scope) (summary : LoopSummary StepResult)
    (item : Json) : Enclosure where
  scope := Named.put name (.ofLoop input (summary.extend item []) none) scope
  frame := (name, summary.iterations.length)
  holds := by
    rw [Scope.inner?_put scope (StepResult.loop?_ofLoop ..) (summary.getElem?_extend item [])]
    rfl

/-- Evaluates the body for items in order, until one iteration fails. `summary` is that of
the iterations before. -/
def evaluateItems (name : String) (input : Json)
    (body : Surroundings → Scope → σ → Evaluation σ) (around : Surroundings) (scope : Scope) :
    LoopSummary StepResult → List Json → σ → LoopEvaluation σ
  | summary, [], s => ⟨none, summary, [], s⟩
  | summary, item :: items, s =>
    let e := body (opened name input scope summary item :: around) [] s
    if e.completed then
      (evaluateItems name input body around scope (summary.extend item e.scope) items
        e.state).after e.calls
    else
      ⟨some (iterationFailure e.scope [] summary.iterations.length),
        summary.extend item e.scope, e.calls, e.state⟩

/-- Evaluates a loop over what its items resolve to. -/
def evaluate (name : String) (body : Surroundings → Scope → σ → Evaluation σ)
    (around : Surroundings) (scope : Scope) (resolved : Json) (s : σ) : StepEvaluation σ :=
  let input := .obj [("items", resolved)]
  match resolved with
  | .arr items =>
    let e := evaluateItems name input body around scope .initial items s
    ⟨.ofLoop input e.summary e.failure, e.calls, e.state⟩
  | v => ⟨.fail input ("items must resolve to an array, got " ++ v.sortName), [], s⟩

end Loop

namespace Chain

/-- Records the result of a step in the scope and goes on there, unless the step failed. -/
def evaluateRest (name : String) (e : StepEvaluation σ) (scope : Scope)
    (rest : Scope → σ → Evaluation σ) : Evaluation σ :=
  let scope := Named.put name e.result scope
  if e.result.isFailed then ⟨false, scope, e.calls, e.state⟩
  else (rest scope e.state).after e.calls

/-- Evaluates a chain in a scope. -/
def evaluate (scene : Scene) (ex : Executors σ) :
    Chain → Surroundings → Scope → σ → Evaluation σ
  | .nil, _, scope, s => ⟨true, scope, [], s⟩
  | .step label task rest, around, scope, s =>
    evaluateRest label.name (task.evaluate scene ex around scope s) scope
      (evaluate scene ex rest around)
  | .loop label settings body rest, around, scope, s =>
    let resolved := (scene.viewIn around scope).resolve settings.items
    evaluateRest label.name
      (Loop.evaluate label.name (evaluate scene ex body) around scope resolved s) scope
      (evaluate scene ex rest around)

end Chain
end Stepwise

/-
# Running a chain is evaluating it

A run writes its results into one trace, and while a loop runs its record stands in that
trace, is written to by its own body, and is emptied and replaced when the loop ends.
Evaluation does without all that. Both are the same: a chain that runs at a path makes
the calls of its evaluation in the scope there, ends as it ends, and leaves the trace with
the scope at the path replaced by the scope of the evaluation. No branch for a state that
a run is never in is taken on the way.

Key theorems: `Chain.guarded_eq_evaluate`, `Chain.run_eq_evaluate`,
`Chain.run_replaces_scope`.
-/
import Stepwise.Proofs.Flow.Accepted
import Stepwise.Proofs.Run.Evaluation
import Stepwise.Proofs.Run.Guarded
import Stepwise.Proofs.Run.StepRecord
import Stepwise.Proofs.Template.Agreement

namespace Stepwise

variable {σ : Type}

/-! ### What a step refers to -/

/-- References from the path into the whole trace lead where they lead among the bindings. -/
theorem Scene.find?_viewIn (scene : Scene) (around : Surroundings) (scope : Scope) :
    (scene.view around.path (around.fill scope)).find? = (scene.viewIn around scope).find? := by
  funext segments
  cases segments with
  | nil => rfl
  | cons root rest =>
    have hget : Trace.get? (around.bindings scope) [] root =
        Named.get? (around.bindings scope) root := Surroundings.get?_fill [] _ root ▸ by
      simp [Surroundings.bindings, Surroundings.scopes]
    simp only [View.find?, view, viewIn, Surroundings.get?_fill, hget]

theorem Scene.resolve_viewIn (scene : Scene) (around : Surroundings) (scope : Scope) :
    (scene.view around.path (around.fill scope)).resolve =
      (scene.viewIn around scope).resolve :=
  funext (View.resolve_congr (scene.find?_viewIn around scope))

/-- A task at the path does what it does among the bindings. -/
theorem Task.perform_viewIn (scene : Scene) (around : Surroundings) (scope : Scope)
    (task : Task) :
    task.perform scene (scene.view around.path (around.fill scope)) =
      task.perform scene (scene.viewIn around scope) :=
  perform_congr rfl rfl fun x _ => congrFun (scene.resolve_viewIn around scope) x

/-! ### Why an evaluation stopped -/

theorem Chain.evaluateRest_of_failed {e : StepEvaluation σ} (h : e.result.isFailed = true)
    (name : String) (scope : Scope) (rest : Scope → σ → Evaluation σ) :
    evaluateRest name e scope rest =
      ⟨false, Named.put name e.result scope, e.calls, e.state⟩ := by
  simp [evaluateRest, h]

theorem Chain.evaluateRest_of_succeeded {e : StepEvaluation σ} (h : e.result.isFailed = false)
    (name : String) (scope : Scope) (rest : Scope → σ → Evaluation σ) :
    evaluateRest name e scope rest =
      (rest (Named.put name e.result scope) e.state).after e.calls := by
  simp [evaluateRest, h]

theorem Task.explained_evaluate (scene : Scene) (ex : Executors σ) (task : Task)
    (around : Surroundings) (scope : Scope) (s : σ) :
    (task.evaluate scene ex around scope s).result.Explained :=
  (recorded_of_yields (Process.yields_run ex _ s)).explained

theorem Loop.explained_evaluate (name : String) (body : Surroundings → Scope → σ → Evaluation σ)
    (around : Surroundings) (scope : Scope) (resolved : Json) (s : σ) :
    (Loop.evaluate name body around scope resolved s).result.Explained := by
  cases resolved with
  | arr items => exact StepResult.explained_ofLoop ..
  | null | bool _ | num _ | str _ | obj _ => exact StepResult.explained_fail ..

/-- Every record of the scope gives a message exactly if its step failed. -/
def Scope.Explained (s : Scope) : Prop := ∀ e ∈ s, e.2.Explained

theorem Scope.explained_nil : Scope.Explained [] := fun _ he => absurd he List.not_mem_nil

theorem Scope.Explained.put {s : Scope} (h : s.Explained) {r : StepResult} (hr : r.Explained)
    (name : String) : Scope.Explained (Named.put name r s) := by
  intro e he
  rcases Named.mem_put he with rfl | he
  · exact hr
  · exact h e he

/-- A scope with a failed step explains the failure, if all its records do. -/
theorem Scope.Explained.explains {s : Scope} (h : s.Explained) {e : String × StepResult}
    (he : e ∈ s) (hf : e.2.isFailed = true) : s.explains = true := by
  obtain ⟨first, hfirst⟩ : ∃ first, s.firstFailure? = some first := by
    rw [← Option.isSome_iff_exists, Scope.firstFailure?, List.find?_isSome]
    exact ⟨e, he, hf⟩
  obtain ⟨hmem, hfailed⟩ := Scope.mem_of_firstFailure? hfirst
  simp [Scope.explains, hfirst, (h first hmem).mp hfailed]

/-- A chain that stops early in a scope of explained records leaves one that explains why. -/
theorem Chain.explains_evaluate (scene : Scene) (ex : Executors σ) (around : Surroundings) :
    ∀ (chain : Chain) (scope : Scope) (s : σ), scope.Explained →
      (chain.evaluate scene ex around scope s).completed = false →
        (chain.evaluate scene ex around scope s).scope.explains = true
  | .nil, _, _, _, h => by simp [evaluate] at h
  | .step label task rest, scope, s, hscope, h => by
    have hr := task.explained_evaluate scene ex around scope s
    exact rest_explains label.name hscope hr (explains_evaluate scene ex around rest) h
  | .loop label settings body rest, scope, s, hscope, h => by
    have hr := Loop.explained_evaluate label.name (body.evaluate scene ex) around scope
      ((scene.viewIn around scope).resolve settings.items) s
    exact rest_explains label.name hscope hr (explains_evaluate scene ex around rest) h
where
  rest_explains {e : StepEvaluation σ} {rest : Scope → σ → Evaluation σ} {scope : Scope}
      (name : String) (hscope : scope.Explained) (hr : e.result.Explained)
      (ih : ∀ scope s, scope.Explained → (rest scope s).completed = false →
        (rest scope s).scope.explains = true)
      (h : (evaluateRest name e scope rest).completed = false) :
      (evaluateRest name e scope rest).scope.explains = true := by
    have hput := hscope.put hr name
    cases hf : e.result.isFailed with
    | true =>
      rw [evaluateRest_of_failed hf]
      exact hput.explains (Named.put_mem name e.result scope) hf
    | false =>
      rw [evaluateRest_of_succeeded hf] at h ⊢
      exact ih _ _ hput h

/-! ### The record of a loop that runs -/

namespace Surroundings

variable (around : Surroundings) (scope : Scope) (name : String)

theorem updateLoop_fill (input : Json) (summary : LoopSummary StepResult)
    (f : LoopSummary StepResult → LoopSummary StepResult) :
    Trace.updateLoop (around.fill (Named.put name (.ofLoop input summary none) scope))
        around.path name f =
      some (around.fill (Named.put name (.ofLoop input (f summary) none) scope)) := by
  rw [Trace.updateLoop, getExact?_fill, Named.get?_put_self, Option.bind_some,
    StepResult.loop?_ofLoop, Option.bind_some, insert_fill, StepResult.withLoop_ofLoop,
    Named.put_put]

theorem loop?_fill (input : Json) (summary : LoopSummary StepResult) :
    Trace.loop? (around.fill (Named.put name (.ofLoop input summary none) scope))
      around.path name = some summary := by
  rw [Trace.loop?, getExact?_fill, Named.get?_put_self, Option.bind_some,
    StepResult.loop?_ofLoop]

/-- What an iteration records stands in the record of its loop. -/
theorem fill_opened (input : Json) (summary : LoopSummary StepResult) (item : Json)
    (inner : Scope) :
    fill (Loop.opened name input scope summary item :: around) inner =
      around.fill (Named.put name (.ofLoop input (summary.extend item inner) none) scope) := by
  rw [fill, Enclosure.fill]
  simp only [Loop.opened, Scope.setInner_put scope (StepResult.loop?_ofLoop ..),
    StepResult.withLoop_ofLoop]
  simp [LoopSummary.extend]

end Surroundings

/-! ### Loops and chains -/

/-- A guarded run that never gives up and does what an evaluation does, wherever it runs. -/
def Refines (ex : Executors σ) (guarded : Path → Trace → Process (Option (Bool × Trace)))
    (body : Surroundings → Scope → σ → Evaluation σ) : Prop :=
  ∀ (around : Surroundings) (scope : Scope) (s : σ),
    let p := guarded around.path (around.fill scope)
    let e := body around scope s
    p.run ex s = (some (e.completed, around.fill e.scope), e.state) ∧ p.calls ex s = e.calls

namespace Loop

variable {ex : Executors σ} {guarded : Path → Trace → Process (Option (Bool × Trace))}
  {body : Surroundings → Scope → σ → Evaluation σ}

/-- The induction is on the items; what stands in the trace between two iterations is the
record of the loop with the summary of those before. -/
theorem guardedIterate_eq_evaluateItems (h : Refines ex guarded body)
    (hexplains : ∀ around s, (body around [] s).completed = false →
      (body around [] s).scope.explains = true)
    (name : String) (input : Json) (around : Surroundings) (scope : Scope) :
    ∀ (items : List Json) (summary : LoopSummary StepResult) (s : σ),
      let t := around.fill (Named.put name (.ofLoop input summary none) scope)
      let p := guardedIterate name around.path guarded summary.iterations.length items t
      let e := evaluateItems name input body around scope summary items s
      p.run ex s =
          (some (e.failure,
            around.fill (Named.put name (.ofLoop input e.summary none) scope)), e.state) ∧
        p.calls ex s = e.calls
  | [], _, _ => ⟨rfl, rfl⟩
  | item :: items, summary, s => by
    have henter : summary.enter summary.iterations.length item = summary.extend item [] := rfl
    have hpath : Surroundings.path (opened name input scope summary item :: around) =
        around.path ++ [(name, summary.iterations.length)] := rfl
    have hlength : ∀ inner, (summary.extend item inner).iterations.length =
        summary.iterations.length + 1 := fun inner => List.length_append
    obtain ⟨hrun, hcalls⟩ := h (opened name input scope summary item :: around) [] s
    have hwhy := hexplains (opened name input scope summary item :: around) s
    have hinner := fun inner => Surroundings.scope?_fill
      (opened name input scope summary item :: around) inner
    simp only [Surroundings.fill_opened, hpath] at hrun hcalls hinner
    simp only [guardedIterate, Surroundings.updateLoop_fill, henter, evaluateItems,
      Process.run_andThen_some hrun, Process.calls_andThen_some hrun, hcalls]
    generalize body (opened name input scope summary item :: around) [] s = e at *
    cases hdone : e.completed with
    | true =>
      have ih := guardedIterate_eq_evaluateItems h hexplains name input around scope items
        (summary.extend item e.scope) e.state
      simp only [hlength] at ih
      simp only [if_true, LoopEvaluation.after]
      exact ⟨ih.1, congrArg (e.calls ++ ·) ih.2⟩
    | false =>
      have hmessage : iterationFailure (around.fill (Named.put name (.ofLoop input
          (summary.extend item e.scope) none) scope))
          (around.path ++ [(name, summary.iterations.length)]) summary.iterations.length =
          iterationFailure e.scope [] summary.iterations.length := by
        rw [iterationFailure, hinner]
        rfl
      simp [hinner, hwhy hdone, hmessage]

theorem guardedPerform_eq_evaluate (h : Refines ex guarded body)
    (hexplains : ∀ around s, (body around [] s).completed = false →
      (body around [] s).scope.explains = true)
    (name : String) (around : Surroundings) (scope : Scope) (resolved : Json) (s : σ) :
    let p := guardedPerform name around.path guarded resolved (around.fill scope)
    let e := Loop.evaluate name body around scope resolved s
    (∃ left, p.run ex s = (some (e.result, around.fill left), e.state) ∧
      ∀ r, Named.put name r left = Named.put name r scope) ∧ p.calls ex s = e.calls := by
  cases resolved with
  | arr items =>
    obtain ⟨hrun, hcalls⟩ := guardedIterate_eq_evaluateItems h hexplains name
      (.obj [("items", .arr items)]) around scope items .initial s
    have hlength : (LoopSummary.initial : LoopSummary StepResult).iterations.length = 0 := rfl
    simp only [hlength] at hrun hcalls
    simp only [guardedPerform, Surroundings.insert_fill, Process.run_andThen_some hrun,
      Process.calls_andThen_some hrun, hcalls, Loop.evaluate, guardedConclude,
      Surroundings.loop?_fill, Surroundings.updateLoop_fill]
    exact ⟨⟨_, rfl, fun r => Named.put_put ..⟩, List.append_nil _⟩
  | null | bool _ | num _ | str _ | obj _ => exact ⟨⟨scope, rfl, fun _ => rfl⟩, rfl⟩

end Loop

namespace Chain

variable {ex : Executors σ}

theorem guardedRecord_eq_evaluateRest {guarded : Trace → Process (Option (Bool × Trace))}
    {rest : Scope → σ → Evaluation σ} {around : Surroundings}
    (h : ∀ scope s, (guarded (around.fill scope)).run ex s =
        (some ((rest scope s).completed, around.fill (rest scope s).scope), (rest scope s).state) ∧
      (guarded (around.fill scope)).calls ex s = (rest scope s).calls)
    (name : String) (e : StepEvaluation σ) {left scope : Scope}
    (hleft : ∀ r, Named.put name r left = Named.put name r scope) :
    let p := guardedRecord around.path name e.result (around.fill left) guarded
    let whole := evaluateRest name e scope rest
    p.run ex e.state = (some (whole.completed, around.fill whole.scope), whole.state) ∧
      e.calls ++ p.calls ex e.state = whole.calls := by
  simp only [guardedRecord, Surroundings.insert_fill, hleft]
  cases hf : e.result.isFailed with
  | true => simp [evaluateRest_of_failed hf]
  | false =>
    obtain ⟨hrun, hcalls⟩ := h (Named.put name e.result scope) e.state
    simp [evaluateRest_of_succeeded hf, hrun, hcalls, Evaluation.after]

/-- **A chain runs as it evaluates.** Its guarded run in any scope, whatever is around it,
never gives up, makes the calls of the evaluation, and changes that scope alone. -/
theorem guarded_eq_evaluate (scene : Scene) (ex : Executors σ) :
    ∀ chain : Chain, Refines ex (chain.guarded scene) (chain.evaluate scene ex)
  | .nil, _, _, _ => ⟨rfl, rfl⟩
  | .step label task rest, around, scope, s => by
    have hview := task.perform_viewIn scene around scope
    simp only [guarded, Process.run_look, Process.calls_look, Process.run_bind,
      Process.calls_bind, hview]
    exact guardedRecord_eq_evaluateRest (guarded_eq_evaluate scene ex rest around) label.name
      (task.evaluate scene ex around scope s) fun _ => rfl
  | .loop label settings body rest, around, scope, s => by
    obtain ⟨⟨left, hrun, hleft⟩, hcalls⟩ := Loop.guardedPerform_eq_evaluate
      (guarded_eq_evaluate scene ex body)
      (fun around s => explains_evaluate scene ex around body [] s Scope.explained_nil)
      label.name around scope ((scene.viewIn around scope).resolve settings.items) s
    simp only [guarded, Process.run_look, Process.calls_look, scene.resolve_viewIn around scope,
      Process.run_andThen_some hrun, Process.calls_andThen_some hrun, hcalls]
    exact guardedRecord_eq_evaluateRest (guarded_eq_evaluate scene ex rest around) label.name _
      hleft

/-- The run of a chain makes the calls of its evaluation, ends as it ends, and changes
only the scope it runs in. -/
theorem run_eq_evaluate (scene : Scene) (ex : Executors σ) (chain : Chain)
    (around : Surroundings) (scope : Scope) (s : σ) :
    let p := chain.run scene around.path (around.fill scope)
    let e := chain.evaluate scene ex around scope s
    p.run ex s = ((e.completed, around.fill e.scope), e.state) ∧ p.calls ex s = e.calls := by
  obtain ⟨hrun, hcalls⟩ := guarded_eq_evaluate scene ex chain around scope s
  obtain ⟨h, hc⟩ := (guards chain around.path (around.fill scope)).run ex hrun
  exact ⟨h, hc.trans hcalls⟩

/-- **Running in place is evaluating.** Whatever stands in the trace: at a path that leads
to a scope, a chain succeeds if its evaluation does, makes the same calls in the same
order, leaves the executors in the same state, and leaves the trace with the scope at the
path replaced by that of the evaluation. -/
theorem run_replaces_scope (scene : Scene) (ex : Executors σ) (chain : Chain) (t : Trace)
    (path : Path) (scope : Scope) (s : σ) (h : Trace.scope? t path = some scope) :
    let e := chain.evaluate scene ex (Trace.surroundings t path) scope s
    ∃ t', (chain.run scene path t).run ex s = ((e.completed, t'), e.state) ∧
      (chain.run scene path t).calls ex s = e.calls ∧
      Trace.modify t path (fun _ => e.scope) = some t' := by
  obtain ⟨hrun, hcalls⟩ :=
    run_eq_evaluate scene ex chain (Trace.surroundings t path) scope s
  have hmodify := Surroundings.modify_fill (Trace.surroundings t path) scope fun _ =>
    (chain.evaluate scene ex (Trace.surroundings t path) scope s).scope
  rw [Trace.path_surroundings h, Trace.fill_surroundings h] at hrun hcalls hmodify
  exact ⟨_, hrun, hcalls, hmodify⟩

/-- A loop over tenants that has entered its first iteration. -/
def tenantTrace : Trace :=
  [("trigger", .succeed .empty Grid.payload),
    ("tenants", .ofLoop .empty ⟨1, some (.str "first"), [[]]⟩ none)]

theorem run_replaces_scope_tenant :
    let scene : Scene := ⟨"run-1", "default", []⟩
    let path : Path := [("tenants", 0)]
    let ex := Grid.script.executors
    let e := Grid.chain.evaluate scene ex (Trace.surroundings tenantTrace path) [] ⟨[], []⟩
    Trace.scope? tenantTrace path = some [] ∧
      ∃ t', (Grid.chain.run scene path tenantTrace).run ex ⟨[], []⟩ =
          ((e.completed, t'), e.state) ∧
        (Grid.chain.run scene path tenantTrace).calls ex ⟨[], []⟩ = e.calls ∧
        Trace.modify tenantTrace path (fun _ => e.scope) = some t' :=
  ⟨rfl, run_replaces_scope ⟨"run-1", "default", []⟩ Grid.script.executors Grid.chain tenantTrace
    [("tenants", 0)] [] ⟨[], []⟩ rfl⟩

end Chain
end Stepwise

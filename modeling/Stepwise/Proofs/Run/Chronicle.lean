/-
# The history of a chain

Beside what a chain evaluates to stands what happens on the way, mark by mark: each step
looks, makes its calls and is recorded, and between the look of a loop and its recording
comes what happens in its iterations, one after the other. A mark knows where in the trace
it belongs, which is told by the surroundings that the evaluation runs in.

Key definitions: `Chain.chronicle`, `Loop.chronicleItems`, `Loop.ComesTo`.
Key theorems: `Chain.history_eq_chronicle`, `Job.history_eq_chronicle`,
`Loop.mem_chronicleItems`, `Loop.ComesTo.isPrefix`.
-/
import Stepwise.Proofs.Run.History
import Stepwise.Proofs.Run.Refinement

namespace Stepwise

variable {σ : Type}

/-- The marks of calls. -/
def Mark.ofCalls (calls : List (Call × Reply)) : List Mark := calls.map fun c => .call c.1 c.2

namespace Loop

variable (name : String) (input : Json) (body : Surroundings → Scope → σ → Evaluation σ)
  (told : Surroundings → Scope → σ → List Mark) (around : Surroundings) (scope : Scope)

/-- What happens in the iterations for items in order, until one of them fails. `told` says
what happens in the body. -/
def chronicleItems : LoopSummary StepResult → List Json → σ → List Mark
  | _, [], _ => []
  | summary, item :: items, s =>
    let inside := opened name input scope summary item :: around
    let e := body inside [] s
    told inside [] s ++
      if e.completed then chronicleItems (summary.extend item e.scope) items e.state else []

/-- What happens in a loop over what its items resolve to. -/
def chronicle (resolved : Json) (s : σ) : List Mark :=
  match resolved with
  | .arr items =>
    chronicleItems name (.obj [("items", resolved)]) body told around scope .initial items s
  | _ => []

end Loop

namespace Chain

/-- What happens from the recording of a step on. -/
def chronicleRest (name : String) (e : StepEvaluation σ) (around : Surroundings)
    (scope : Scope) (rest : Scope → σ → List Mark) : List Mark :=
  let scope := Named.put name e.result scope
  .record ⟨around.path, name, e.result, around.fill scope⟩ ::
    if e.result.isFailed then [] else rest scope e.state

/-- What happens while a chain runs in a scope. -/
def chronicle (scene : Scene) (ex : Executors σ) :
    Chain → Surroundings → Scope → σ → List Mark
  | .nil, _, _, _ => []
  | .step label task rest, around, scope, s =>
    let e := task.evaluate scene ex around scope s
    .look ⟨around.path, label.name, around.fill scope⟩ ::
      (Mark.ofCalls e.calls ++
        chronicleRest label.name e around scope (chronicle scene ex rest around))
  | .loop label settings body rest, around, scope, s =>
    let resolved := (scene.viewIn around scope).resolve settings.items
    let e := Loop.evaluate label.name (body.evaluate scene ex) around scope resolved s
    .look ⟨around.path, label.name, around.fill scope⟩ ::
      (Loop.chronicle label.name (body.evaluate scene ex) (chronicle scene ex body) around scope
          resolved s ++
        chronicleRest label.name e around scope (chronicle scene ex rest around))

end Chain

/-! ### The history is the chronicle -/

theorem Telling.history_ofProcess {α : Type} (ex : Executors σ) :
    ∀ (p : Process α) (s : σ), (∀ event ∈ p.trail ex s, ∃ c r, event = .call c r) →
      (ofProcess p).history ex s = Mark.ofCalls (p.calls ex s)
  | .done _, _, _ => rfl
  | .look m next, s, h => by
    obtain ⟨c, r, hlook⟩ := h (.look m) List.mem_cons_self
    contradiction
  | .call c next, s, h => by
    have ih := history_ofProcess ex (next (ex.answer c s).1) (ex.answer c s).2
      fun event hevent => h event (List.mem_cons_of_mem _ hevent)
    exact congrArg (Mark.call c (ex.answer c s).1 :: ·) ih

/-- A task looks at nothing once it has begun. -/
theorem Task.trail_perform (scene : Scene) (view : View) (ex : Executors σ) (task : Task)
    (s : σ) : ∀ event ∈ (task.perform scene view).trail ex s, ∃ c r, event = .call c r := by
  have hcall : ∀ (c : Call) (input : Json), ∀ event ∈ (c.perform input).trail ex s,
      ∃ c r, event = .call c r := by
    intro c input event hevent
    rw [List.mem_singleton.mp hevent]
    exact ⟨_, _, rfl⟩
  cases task with
  | code settings => exact hcall _ _
  | integration settings => exact hcall _ _
  | storage settings =>
    rw [perform, performStorage]
    obtain ⟨message, -, hact⟩ | ⟨key, -, ⟨-, hact⟩ | ⟨-, hact⟩⟩ :=
      storageAct_cases scene settings (view.resolve settings.key) (settings.value.map view.resolve)
    · rw [hact]
      exact fun event hevent => absurd hevent List.not_mem_nil
    · rw [hact]
      exact hcall _ _
    · rw [hact]
      exact hcall _ _
  | response settings => exact fun event hevent => absurd hevent List.not_mem_nil

/-- A telling body that does, and tells, what is said of it, wherever it runs. -/
def Chronicles (ex : Executors σ) (telling : Path → Trace → Telling (Bool × Trace))
    (body : Surroundings → Scope → σ → Evaluation σ)
    (told : Surroundings → Scope → σ → List Mark) : Prop :=
  ∀ (around : Surroundings) (scope : Scope) (s : σ),
    let p := telling around.path (around.fill scope)
    let e := body around scope s
    p.forget.run ex s = ((e.completed, around.fill e.scope), e.state) ∧
      p.history ex s = told around scope s

/-- The induction is on the items, with the trace between two iterations as for the run. -/
theorem Loop.history_tellingIterate {ex : Executors σ}
    {telling : Path → Trace → Telling (Bool × Trace)}
    {body : Surroundings → Scope → σ → Evaluation σ}
    {told : Surroundings → Scope → σ → List Mark} (h : Chronicles ex telling body told)
    (name : String) (input : Json) (around : Surroundings) (scope : Scope) :
    ∀ (items : List Json) (summary : LoopSummary StepResult) (s : σ),
      let t := around.fill (Named.put name (.ofLoop input summary none) scope)
      (tellingIterate name around.path telling summary.iterations.length items t).history ex s =
        chronicleItems name input body told around scope summary items s
  | [], _, _ => rfl
  | item :: items, summary, s => by
    have henter : summary.enter summary.iterations.length item = summary.extend item [] := rfl
    have hpath : Surroundings.path (opened name input scope summary item :: around) =
        around.path ++ [(name, summary.iterations.length)] := rfl
    obtain ⟨hrun, htold⟩ := h (opened name input scope summary item :: around) [] s
    simp only [Surroundings.fill_opened, hpath] at hrun htold
    simp only [tellingIterate, Surroundings.updateLoop_fill, henter, Telling.history_bind, hrun,
      htold, chronicleItems]
    generalize body (opened name input scope summary item :: around) [] s = e
    have hlength : (summary.extend item e.scope).iterations.length =
        summary.iterations.length + 1 := List.length_append
    have ih := history_tellingIterate h name input around scope items
      (summary.extend item e.scope) e.state
    rw [hlength] at ih
    cases e.completed with
    | true => exact congrArg (_ ++ ·) ih
    | false => rfl

namespace Chain

variable (scene : Scene) (ex : Executors σ)

/-- A loop ends as it evaluates, and leaves the trace as it was but for its own record,
which stands where the result goes. -/
theorem perform_eq_evaluate (body : Chain) (name : String) (around : Surroundings)
    (scope : Scope) (resolved : Json) (s : σ) :
    let e := Loop.evaluate name (body.evaluate scene ex) around scope resolved s
    ∃ left, (Loop.perform name around.path (body.run scene) resolved (around.fill scope)).run ex s =
        ((e.result, around.fill left), e.state) ∧
      ∀ r, Named.put name r left = Named.put name r scope := by
  obtain ⟨⟨left, hrun, hleft⟩, -⟩ := Loop.guardedPerform_eq_evaluate
    (guarded_eq_evaluate scene ex body)
    (fun around s => explains_evaluate scene ex around body [] s Scope.explained_nil)
    name around scope resolved s
  exact ⟨left, ((Loop.guardedPerform_guards (guards body) resolved _).run ex hrun).1, hleft⟩

theorem history_tellingRecord {telling : Trace → Telling (Bool × Trace)}
    {rest : Scope → σ → List Mark} {around : Surroundings}
    (h : ∀ scope s, (telling (around.fill scope)).history ex s = rest scope s)
    (name : String) (e : StepEvaluation σ) {left scope : Scope}
    (hleft : ∀ r, Named.put name r left = Named.put name r scope) :
    (tellingRecord around.path name e.result (around.fill left) telling).history ex e.state =
      chronicleRest name e around scope rest := by
  simp only [tellingRecord, Surroundings.insert_fill, hleft, chronicleRest, Telling.history]
  cases e.result.isFailed with
  | true => rfl
  | false => exact congrArg (Mark.record _ :: ·) (h _ e.state)

/-- The telling run of a chain does what the chain evaluates to, and tells its chronicle. -/
theorem history_eq_chronicle : ∀ chain : Chain,
    Chronicles ex (chain.telling scene) (chain.evaluate scene ex) (chain.chronicle scene ex)
  | .nil, _, _, _ => ⟨rfl, rfl⟩
  | .step label task rest, around, scope, s => by
    refine ⟨?_, ?_⟩
    · rw [forget_telling]
      exact (run_eq_evaluate scene ex (.step label task rest) around scope s).1
    · have hview := task.perform_viewIn scene around scope
      have htask := Telling.history_ofProcess ex (task.perform scene (scene.viewIn around scope))
        s (task.trail_perform scene (scene.viewIn around scope) ex s)
      have hleft : ∀ r, Named.put label.name r scope = Named.put label.name r scope :=
        fun _ => rfl
      have hrest := history_tellingRecord ex
        (fun scope s => (history_eq_chronicle rest around scope s).2) label.name
        (task.evaluate scene ex around scope s) hleft
      simp only [telling, Telling.history, Telling.history_bind, hview, htask,
        Telling.forget_ofProcess, chronicle]
      exact congrArg (fun marks => Mark.look _ :: (_ ++ marks)) hrest
  | .loop label settings body rest, around, scope, s => by
    refine ⟨?_, ?_⟩
    · rw [forget_telling]
      exact (run_eq_evaluate scene ex (.loop label settings body rest) around scope s).1
    · have hitems := scene.resolve_viewIn around scope
      obtain ⟨left, hrun, hleft⟩ := perform_eq_evaluate scene ex body label.name around scope
        ((scene.viewIn around scope).resolve settings.items) s
      have hrest := history_tellingRecord ex
        (fun scope s => (history_eq_chronicle rest around scope s).2) label.name
        (Loop.evaluate label.name (body.evaluate scene ex) around scope
          ((scene.viewIn around scope).resolve settings.items) s) hleft
      simp only [telling, Telling.history, Telling.history_bind, hitems,
        Loop.forget_tellingPerform (forget_telling body), hrun, chronicle]
      rw [hrest, history_tellingPerform (history_eq_chronicle body)]
where
  history_tellingPerform {telling : Path → Trace → Telling (Bool × Trace)}
      {body : Surroundings → Scope → σ → Evaluation σ}
      {told : Surroundings → Scope → σ → List Mark} (h : Chronicles ex telling body told)
      {name : String} {around : Surroundings} {scope : Scope} {resolved : Json} {s : σ} :
      (Loop.tellingPerform name around.path telling resolved (around.fill scope)).history ex s =
        Loop.chronicle name body told around scope resolved s := by
    cases resolved with
    | arr items =>
      have hiterate := Loop.history_tellingIterate h name (.obj [("items", .arr items)]) around
        scope items .initial s
      have hlength : (LoopSummary.initial : LoopSummary StepResult).iterations.length = 0 := rfl
      rw [hlength] at hiterate
      simp only [Loop.tellingPerform, Surroundings.insert_fill, Option.getD_some,
        Telling.history_bind, Telling.history, List.append_nil]
      exact hiterate
    | null | bool _ | num _ | str _ | obj _ => rfl

end Chain

/-- The history of a run of a job is the record of the trigger and then the chronicle of
the chain of its flow. -/
theorem Job.history_eq_chronicle (job : Job) (ex : Executors σ) (s : σ) :
    job.history ex s = .record job.opening ::
      job.flow.trigger.chain.chronicle job.scene ex [] [(triggerStep, job.seed)] s :=
  congrArg (Mark.record job.opening :: ·)
    (Chain.history_eq_chronicle job.scene ex job.flow.trigger.chain [] _ s).2

/-! ### Coming to an item -/

namespace Loop

variable {name : String} {input : Json} {body : Surroundings → Scope → σ → Evaluation σ}
  {told : Surroundings → Scope → σ → List Mark} {around : Surroundings} {scope : Scope}

/-- A loop comes to an item when it has completed the iterations for those before it, which
leave this summary and this state. -/
def ComesTo (name : String) (input : Json) (body : Surroundings → Scope → σ → Evaluation σ)
    (around : Surroundings) (scope : Scope) (summary : LoopSummary StepResult)
    (items : List Json) (s : σ) (reached : LoopSummary StepResult) (item : Json) (s' : σ) :
    Prop :=
  ∃ before after, items = before ++ item :: after ∧
    let e := evaluateItems name input body around scope summary before s
    e.failure = none ∧ e.summary = reached ∧ e.state = s'

theorem ComesTo.later {summary reached : LoopSummary StepResult} {item next : Json}
    {items : List Json} {s s' : σ}
    (hdone : (body (opened name input scope summary item :: around) [] s).completed = true)
    (h : let e := body (opened name input scope summary item :: around) [] s
      ComesTo name input body around scope (summary.extend item e.scope) items e.state reached
        next s') :
    ComesTo name input body around scope summary (item :: items) s reached next s' := by
  obtain ⟨before, after, rfl, hnone, hsummary, hstate⟩ := h
  refine ⟨item :: before, after, rfl, ?_⟩
  rw [evaluateItems, if_pos hdone]
  exact ⟨hnone, hsummary, hstate⟩

/-- What happens in a loop happens in an iteration for an item that the loop comes to. -/
theorem mem_chronicleItems {mark : Mark} :
    ∀ {items : List Json} {summary : LoopSummary StepResult} {s : σ},
      mark ∈ chronicleItems name input body told around scope summary items s →
        ∃ reached item s', ComesTo name input body around scope summary items s reached item s' ∧
          let inside := told (opened name input scope reached item :: around) [] s'
          mark ∈ inside ∧
            inside.Sublist (chronicleItems name input body told around scope summary items s)
  | item :: items, summary, s, hmark => by
    rw [chronicleItems] at hmark ⊢
    rcases List.mem_append.mp hmark with hmark | hmark
    · exact ⟨summary, item, s, ⟨[], items, rfl, rfl, rfl, rfl⟩, hmark,
        List.sublist_append_left ..⟩
    · split at hmark
      · rename_i hdone
        obtain ⟨reached, next, s', hcomes, hmark, hsublist⟩ := mem_chronicleItems hmark
        refine ⟨reached, next, s', hcomes.later hdone, hmark, ?_⟩
        rw [if_pos hdone]
        exact hsublist.trans (List.sublist_append_right ..)
      · contradiction

/-- The iterations before stay in the summary. -/
theorem isPrefix_evaluateItems : ∀ (items : List Json) (summary : LoopSummary StepResult) (s : σ),
    summary.iterations <+:
      (evaluateItems name input body around scope summary items s).summary.iterations
  | [], _, _ => List.prefix_rfl
  | item :: items, summary, s => by
    have hextend : ∀ inner, summary.iterations <+: (summary.extend item inner).iterations :=
      fun inner => List.prefix_append _ [inner]
    rw [evaluateItems]
    split
    · exact (hextend _).trans (isPrefix_evaluateItems items _ _)
    · exact hextend _

theorem evaluateItems_append {more : List Json} :
    ∀ {before : List Json} {summary : LoopSummary StepResult} {s : σ},
      let e := evaluateItems name input body around scope summary before s
      e.failure = none →
        (evaluateItems name input body around scope summary (before ++ more) s).summary =
          (evaluateItems name input body around scope e.summary more e.state).summary
  | [], _, _, _ => rfl
  | item :: before, summary, s, hnone => by
    simp only [List.cons_append, evaluateItems] at hnone ⊢
    split at hnone
    · rename_i hdone
      simp only [if_pos hdone]
      exact evaluateItems_append hnone
    · contradiction

/-- What the loop has when it comes to an item, and what it leaves there, stays in the
summary. -/
theorem ComesTo.isPrefix {summary reached : LoopSummary StepResult} {item : Json}
    {items : List Json} {s s' : σ}
    (h : ComesTo name input body around scope summary items s reached item s') :
    reached.iterations ++ [(body (opened name input scope reached item :: around) [] s').scope] <+:
      (evaluateItems name input body around scope summary items s).summary.iterations := by
  obtain ⟨before, after, rfl, hnone, rfl, rfl⟩ := h
  rw [evaluateItems_append hnone, evaluateItems]
  split
  · exact isPrefix_evaluateItems after (LoopSummary.extend _ item _) _
  · exact List.prefix_rfl

end Loop
end Stepwise

/-
# The response of a run

Nothing remembers the response while a job runs: when the run has ended, the names of the
chain's own responses are looked up in the trace, and the last one found is taken. This is what
the latest of them to run has answered. Their names are those of no other steps, so the looks
under these names are theirs, and what is recorded under them is what they put out; those that
are not reached are not found; and no step in the body of a loop has one of these names.

Key definitions: `Action.response?`, `Chain.response?`, `Chain.answer?`, `Chain.Fresh`.

Key theorems: `Chain.responded_evaluate`, `Chain.not_mem_names_of_inside`,
`Job.response_eq_getLast?`, `Job.response_of_last`.
-/
import Stepwise.Proofs.Run.Sight

namespace Stepwise

variable {σ : Type}

/-- The settings of a response. -/
def Action.response? (a : Action) : Option ResponseSettings :=
  match a.work with
  | .task (.response settings) => some settings
  | _ => none

/-- What is recorded of an action in a scope, if it is a response that did not fail. -/
def Action.responded? (scope : Scope) (a : Action) : Option StepResult :=
  a.response?.bind fun _ =>
    (Named.get? scope a.label.name).bind fun r => if r.isFailed then none else some r

/-- What is recorded of a response that answers with a value. -/
def StepResult.answer (v : Json) : StepResult := .succeed (.obj [("output", v)]) v

namespace Task

theorem eq_response {label : Label} {task : Task} {next : Option String}
    {settings : ResponseSettings}
    (h : Action.response? ⟨label, .task task, next⟩ = some settings) :
    task = .response settings := by
  cases task with
  | response own =>
    cases h
    rfl
  | code _ | integration _ | storage _ => contradiction

theorem result_evaluate_response {scene : Scene} {ex : Executors σ} (settings : ResponseSettings)
    (around : Surroundings) (scope : Scope) (s : σ) :
    ((Task.response settings).evaluate scene ex around scope s).result =
      .answer ((scene.view around.path (around.fill scope)).resolve settings.output) := by
  rw [scene.resolve_viewIn]
  rfl

end Task

namespace Chain

/-! ### Answers -/

/-- The settings of the response that a name stands for in the chain itself. -/
def response? (chain : Chain) (name : String) : Option ResponseSettings :=
  (chain.topLevel.find? (·.label.name = name)).bind Action.response?

/-- What a response of the chain itself answers when it looks. -/
def answer? (chain : Chain) (scene : Scene) : Event → Option Json
  | .look m => (chain.response? m.name).map fun settings =>
      (scene.view m.path m.trace).resolve settings.output
  | .call _ _ => none

/-- What the responses of the chain itself answer, in order. -/
def answers (chain : Chain) (scene : Scene) (marks : List Mark) : List Json :=
  marks.filterMap fun mark => mark.event?.bind (chain.answer? scene)

theorem answer?_look {chain : Chain} {m : Moment} {settings : ResponseSettings}
    (h : chain.response? m.name = some settings) (scene : Scene) :
    chain.answer? scene (.look m) =
      some ((scene.view m.path m.trace).resolve settings.output) :=
  congrArg (Option.map _) h

theorem answered_iff (chain : Chain) (scene : Scene) (trail : List Event) :
    trail.filterMap (chain.answer? scene) ≠ [] ↔
      ∃ m settings, .look m ∈ trail ∧ chain.response? m.name = some settings := by
  constructor
  · intro hne
    obtain ⟨v, hv⟩ := List.exists_mem_of_ne_nil _ hne
    obtain ⟨event, hevent, hanswer⟩ := List.mem_filterMap.mp hv
    cases event with
    | look m =>
      obtain ⟨settings, hsettings, -⟩ := Option.map_eq_some_iff.mp hanswer
      exact ⟨m, settings, hevent, hsettings⟩
    | call c r => contradiction
  · rintro ⟨m, settings, hm, hsettings⟩
    have hanswer := answer?_look hsettings scene
    exact List.ne_nil_of_mem (List.mem_filterMap.mpr ⟨.look m, hm, hanswer⟩)

/-- The last answer is that of a response after which no other looks. -/
theorem getLast?_answers {chain : Chain} {scene : Scene} {before after : List Event} {m : Moment}
    {settings : ResponseSettings} (h : chain.response? m.name = some settings)
    (hlater : ∀ later, .look later ∈ after → chain.response? later.name = none) :
    ((before ++ .look m :: after).filterMap (chain.answer? scene)).getLast? =
      some ((scene.view m.path m.trace).resolve settings.output) := by
  have hafter : after.filterMap (chain.answer? scene) = [] := by
    refine List.filterMap_eq_nil_iff.mpr fun event hevent => ?_
    cases event with
    | look later => exact congrArg (Option.map _) (hlater later hevent)
    | call c r => rfl
  rw [List.filterMap_append, List.filterMap_cons_some (answer?_look h scene), hafter,
    List.getLast?_append, List.getLast?_singleton, Option.some_or]

theorem answers_look (chain : Chain) (scene : Scene) (m : Moment) (marks : List Mark) :
    chain.answers scene (.look m :: marks) =
      (chain.answer? scene (.look m)).toList ++ chain.answers scene marks := by
  rw [answers, List.filterMap_cons, Mark.event?, Option.bind_some]
  cases chain.answer? scene (.look m) <;> rfl

theorem answers_append (chain : Chain) (scene : Scene) (marks more : List Mark) :
    chain.answers scene (marks ++ more) =
      chain.answers scene marks ++ chain.answers scene more := List.filterMap_append

theorem response?_of_not_mem {chain : Chain} {name : String} (h : name ∉ chain.names) :
    chain.response? name = none := by
  have hfind : chain.topLevel.find? (·.label.name = name) = none := by
    refine List.find?_eq_none.mpr fun a ha heq => h ?_
    exact of_decide_eq_true heq ▸ List.mem_map_of_mem ha
  rw [response?, hfind, Option.bind_none]

theorem answers_eq_nil {chain : Chain} {scene : Scene} {marks : List Mark}
    (h : ∀ m, .look m ∈ marks → m.name ∉ chain.names) : chain.answers scene marks = [] := by
  refine List.filterMap_eq_nil_iff.mpr fun mark hmark => ?_
  cases mark with
  | look m => exact congrArg (Option.map _) (response?_of_not_mem (h m hmark))
  | call c r => rfl
  | record e => rfl

/-- Of steps that are not reached nothing is found. -/
theorem responded_eq_nil {chain : Chain} {scope : Scope}
    (hnew : ∀ name ∈ chain.names, name ∉ Named.names scope) :
    chain.topLevel.filterMap (Action.responded? scope) = [] := by
  refine List.filterMap_eq_nil_iff.mpr fun a ha => ?_
  have hnone := Named.get?_of_not_mem (hnew a.label.name (List.mem_map_of_mem ha))
  rw [Action.responded?, hnone]
  cases a.response? <;> rfl

/-! ### Names used once -/

/-- A chain in which no name is used twice, in a scope where none of its own steps has been
recorded. -/
structure Fresh (chain : Chain) (scope : Scope) : Prop where
  nodup : chain.allNames.Nodup
  new : ∀ name ∈ chain.names, name ∉ Named.names scope

/-- What is known of a chain that goes on from an action with this name. -/
structure FreshLink (rest : Chain) (name : String) (scope : Scope) : Prop where
  new : name ∉ Named.names scope
  not_mem : name ∉ rest.allNames
  rest : ∀ r, rest.Fresh (scope ++ [(name, r)])

section Fresh

variable {scene : Scene} {ex : Executors σ} {label : Label} {task : Task}
  {settings : LoopSettings} {chain body rest : Chain} {around : Surroundings} {scope : Scope}
  {s : σ}

theorem Fresh.of_step (h : (step label task rest).Fresh scope) :
    rest.FreshLink label.name scope := by
  have hapart := namesApart_of_nodup h.nodup
  have hnodup := h.nodup
  rw [allNames_step, List.nodup_cons] at hnodup
  obtain ⟨hlabel, hrest⟩ := List.forall_mem_cons.mp h.new
  exact ⟨hlabel, hnodup.1, fun _ => ⟨hnodup.2, evaluate_leaves.new_after hapart.1 hrest⟩⟩

theorem Fresh.of_loop (h : (loop label settings body rest).Fresh scope) :
    rest.FreshLink label.name scope ∧ body.Fresh [] ∧
      ∀ name ∈ body.allNames, name ∉ (loop label settings body rest).names := by
  have hapart := namesApart_of_nodup h.nodup
  have hnodup := h.nodup
  rw [allNames_loop, List.nodup_cons, List.nodup_append] at hnodup
  obtain ⟨hown, hbody, hall, hdisjoint⟩ := hnodup
  obtain ⟨hlabel, hrest⟩ := List.forall_mem_cons.mp h.new
  refine ⟨⟨hlabel, fun hmem => hown (List.mem_append_right _ hmem), fun _ =>
    ⟨hall, evaluate_leaves.new_after hapart.1 hrest⟩⟩, ⟨hbody, new_in_empty body⟩, ?_⟩
  intro name hname
  rw [names_loop, List.mem_cons, not_or]
  refine ⟨fun heq => hown (List.mem_append_left _ (heq ▸ hname)), fun hmem => ?_⟩
  exact hdisjoint name hname name (names_subset_allNames rest hmem) rfl

theorem Fresh.shows (h : chain.Fresh scope) {mark : Mark} {m : Moment}
    (hmark : mark ∈ chain.chronicle scene ex around scope s) (hm : mark.moment? = some m) :
    chain.Shows around scope m :=
  shows_of_mem (namesApart_of_nodup h.nodup) h.new hmark hm

/-- What looks while a chain runs has one of its names. -/
theorem Fresh.name_mem (h : chain.Fresh scope) {m : Moment}
    (hm : .look m ∈ chain.chronicle scene ex around scope s) : m.name ∈ chain.allNames := by
  obtain ⟨below, added, hshows⟩ := h.shows hm rfl
  exact hshows.name_mem

/-- What looks in a loop has the name of no action beside the loop. -/
theorem Fresh.not_mem_of_mem_loop (h : (loop label settings body rest).Fresh scope)
    {resolved : Json} {m : Moment}
    (hm : .look m ∈ Loop.chronicle label.name (body.evaluate scene ex) (body.chronicle scene ex)
      around scope resolved s) : m.name ∉ (loop label settings body rest).names := by
  obtain ⟨-, hbody, hapart⟩ := h.of_loop
  obtain ⟨items, -, reached, item, s', -, hmark, -⟩ := exists_of_mem_loop hm
  exact hapart m.name (hbody.name_mem hmark)

end Fresh

/-! ### A chain that begins with an action -/

section Link

variable {chain rest : Chain} {a : Action} (hchain : chain.topLevel = a :: rest.topLevel)

include hchain

theorem response?_self : chain.response? a.label.name = a.response? := by
  have hown : decide (a.label.name = a.label.name) = true := decide_eq_true rfl
  rw [response?, hchain, List.find?_cons, hown, Option.bind_some]

theorem response?_of_ne {name : String} (h : a.label.name ≠ name) :
    chain.response? name = rest.response? name := by
  have hother : decide (a.label.name = name) = false := decide_eq_false h
  rw [response?, hchain, List.find?_cons, hother, response?]

/-- Where the first action does not look, the answers are those of the rest. -/
theorem answers_of_ne {scene : Scene} {marks : List Mark}
    (h : ∀ m, .look m ∈ marks → a.label.name ≠ m.name) :
    chain.answers scene marks = rest.answers scene marks := by
  refine List.filterMap_congr fun mark hmark => ?_
  cases mark with
  | look m => exact congrArg (Option.map _) (response?_of_ne hchain (h m hmark))
  | call c r => rfl
  | record e => rfl

/-- If the first action is a response, what is recorded of it is what it answers. -/
theorem responded?_self {scene : Scene} {path : Path} {t : Trace} {scope : Scope}
    {r : StepResult} (hlabel : a.label.name ∉ Named.names scope)
    (hresult : ∀ settings, a.response? = some settings →
      r = .answer ((scene.view path t).resolve settings.output)) (entries : Scope) :
    a.responded? (scope ++ (a.label.name, r) :: entries) =
      (chain.answer? scene (.look ⟨path, a.label.name, t⟩)).map .answer := by
  have hfound : Named.get? (scope ++ (a.label.name, r) :: entries) a.label.name = some r := by
    rw [Named.get?_append, Named.get?_of_not_mem hlabel, Option.none_or]
    exact if_pos rfl
  rw [Action.responded?, answer?, response?_self hchain, hfound]
  cases hresponse : a.response? with
  | none => rfl
  | some settings =>
    rw [hresult settings hresponse]
    rfl

/-- The answer of the first action, if it is a response, and then those of the rest; and the
same among what is recorded. -/
theorem responded_link {scene : Scene} {ex : Executors σ} {around : Surroundings}
    {scope : Scope} {e : StepEvaluation σ} {inside : List Mark}
    (hlink : rest.FreshLink a.label.name scope)
    (hinside : ∀ m, .look m ∈ inside → m.name ∉ chain.names)
    (hresult : ∀ settings, a.response? = some settings →
      e.result = .answer ((scene.view around.path (around.fill scope)).resolve settings.output))
    (hrest : let after := scope ++ [(a.label.name, e.result)]
      rest.topLevel.filterMap
          (Action.responded? (rest.evaluate scene ex around after e.state).scope) =
        (rest.answers scene (rest.chronicle scene ex around after e.state)).map .answer) :
    chain.topLevel.filterMap
        (Action.responded?
          (evaluateRest a.label.name e scope (rest.evaluate scene ex around)).scope) =
      (chain.answers scene (.look ⟨around.path, a.label.name, around.fill scope⟩ ::
        (inside ++ chronicleRest a.label.name e around scope
          (rest.chronicle scene ex around)))).map .answer := by
  have hput := Named.put_of_not_mem e.result hlink.new
  have hself := responded?_self hchain hlink.new hresult
  have hfresh := hlink.rest e.result
  have hinside : chain.answers scene inside = [] := answers_eq_nil hinside
  have hrecord : chain.answers scene (inside ++ chronicleRest a.label.name e around scope
      (rest.chronicle scene ex around)) =
        if e.result.isFailed then []
        else chain.answers scene (rest.chronicle scene ex around
          (scope ++ [(a.label.name, e.result)]) e.state) := by
    rw [answers_append, hinside, List.nil_append, chronicleRest, hput]
    cases e.result.isFailed <;> rfl
  rw [answers_look, hrecord, List.map_append, hchain, List.filterMap_cons]
  cases hf : e.result.isFailed with
  | true =>
    rw [evaluateRest_of_failed hf, hput, responded_eq_nil hfresh.new, hself]
    cases chain.answer? scene _ <;> rfl
  | false =>
    -- The record of the step stays where it is while the rest of the chain is evaluated.
    obtain ⟨entries, hscope, -⟩ := evaluate_leaves scene ex rest around _ e.state
      (namesApart_of_nodup hfresh.nodup) hfresh.new
    rw [List.append_assoc, List.singleton_append] at hscope
    have hfirst := hself entries
    rw [← hscope] at hfirst
    have hlooks : ∀ m, .look m ∈ rest.chronicle scene ex around
        (scope ++ [(a.label.name, e.result)]) e.state → a.label.name ≠ m.name :=
      fun m hm heq => hlink.not_mem (heq ▸ hfresh.name_mem hm)
    rw [evaluateRest_of_succeeded hf, hput, Evaluation.after, if_neg Bool.false_ne_true,
      answers_of_ne hchain hlooks, ← hrest, hfirst]
    cases chain.answer? scene _ <;> rfl

end Link

/-! ### A chain -/

section Whole

variable (scene : Scene) (ex : Executors σ)

/-- The responses found in the scope of a chain after it are those that have answered while it
ran, in the same order. The induction is on the chain. -/
theorem responded_evaluate : ∀ (chain : Chain) (around : Surroundings) (scope : Scope) (s : σ),
    chain.Fresh scope →
      chain.topLevel.filterMap
          (Action.responded? (chain.evaluate scene ex around scope s).scope) =
        (chain.answers scene (chain.chronicle scene ex around scope s)).map .answer
  | .nil, _, _, _, _ => rfl
  | .step label task rest, around, scope, s, h => by
    have hlink := h.of_step
    have hchain : (step label task rest).topLevel =
        ⟨label, .task task, rest.firstName?⟩ :: rest.topLevel := rfl
    refine responded_link hchain hlink ?_ ?_ ?_
    · intro m hm
      have hcall := Mark.moment?_of_mem_ofCalls hm
      contradiction
    · intro settings hsettings
      obtain rfl := Task.eq_response hsettings
      exact Task.result_evaluate_response settings around scope s
    · exact responded_evaluate rest around _ _ (hlink.rest _)
  | .loop label settings body rest, around, scope, s, h => by
    obtain ⟨hlink, -, -⟩ := h.of_loop
    have hchain : (loop label settings body rest).topLevel =
        ⟨label, .loop settings body, rest.firstName?⟩ :: rest.topLevel := rfl
    refine responded_link hchain hlink ?_ ?_ ?_
    · exact fun m hm => h.not_mem_of_mem_loop hm
    · intro settings hsettings
      contradiction
    · exact responded_evaluate rest around _ _ (hlink.rest _)

/-- What looks further inside has the name of no action of the chain itself. -/
theorem not_mem_names_of_inside {m : Moment} :
    ∀ {chain : Chain} {around : Surroundings} {scope : Scope} {s : σ}, chain.Fresh scope →
      .look m ∈ chain.chronicle scene ex around scope s → m.path ≠ around.path →
        m.name ∉ chain.names
  | .step label task rest, around, scope, s, h, hm, hpath => by
    have hlink := h.of_step
    rcases List.mem_cons.mp hm with heq | hm
    · cases heq
      exact absurd rfl hpath
    rcases List.mem_append.mp hm with hm | hm
    · have hcall := Mark.moment?_of_mem_ofCalls hm
      contradiction
    · exact of_mem_rest hlink (fun hm => not_mem_names_of_inside (hlink.rest _) hm hpath) hm
  | .loop label settings body rest, around, scope, s, h, hm, hpath => by
    obtain ⟨hlink, -, -⟩ := h.of_loop
    rcases List.mem_cons.mp hm with heq | hm
    · cases heq
      exact absurd rfl hpath
    rcases List.mem_append.mp hm with hm | hm
    · exact h.not_mem_of_mem_loop hm
    · exact of_mem_rest hlink (fun hm => not_mem_names_of_inside (hlink.rest _) hm hpath) hm
where
  of_mem_rest {m : Moment} {rest : Chain} {name : String} {e : StepEvaluation σ}
      {around : Surroundings} {scope : Scope} (hlink : rest.FreshLink name scope)
      (hrest : .look m ∈ rest.chronicle scene ex around (scope ++ [(name, e.result)]) e.state →
        m.name ∉ rest.names)
      (hm : .look m ∈ chronicleRest name e around scope (rest.chronicle scene ex around)) :
      m.name ∉ name :: rest.names := by
    rcases eq_record_or_mem hlink.new hm with hrecord | ⟨-, hm⟩
    · contradiction
    · rw [List.mem_cons, not_or]
      exact ⟨fun heq => hlink.not_mem (heq ▸ (hlink.rest e.result).name_mem hm), hrest hm⟩

end Whole

end Chain

/-! ### A job -/

namespace Job

theorem lastResponse_eq (job : Job) (t : Trace) :
    job.lastResponse t =
      (job.flow.trigger.chain.topLevel.filterMap (Action.responded? t)).getLast?.bind
        (·.part? []) := by
  refine congrArg (fun found : List StepResult => found.getLast?.bind (·.part? []))
    (List.filterMap_congr fun a _ => ?_)
  obtain ⟨label, work, next⟩ := a
  rcases work with (_ | _ | _ | _) | _ <;> rfl

/-- What looks in a run looks while the chain of the flow runs. -/
theorem mem_chronicle {job : Job} {ex : Executors σ} {s : σ} {m : Moment}
    (hm : .look m ∈ job.process.trail ex s) :
    .look m ∈ job.flow.trigger.chain.chronicle job.scene ex [] [(triggerStep, job.seed)] s := by
  rw [trail_eq_history, history_eq_chronicle] at hm
  obtain ⟨mark, hmark, hevent⟩ := List.mem_filterMap.mp hm
  obtain rfl := Mark.eq_look_of_event? hevent
  rcases List.mem_cons.mp hmark with hopening | hmark
  · contradiction
  · exact hmark

variable {generated : String} {document : Json} {job : Job}

/-- The chain of an accepted job begins beside the record of the trigger only. -/
theorem fresh (h : ofJson generated document = .ok job) :
    job.flow.trigger.chain.Fresh [(triggerStep, job.seed)] :=
  ⟨(usableNames_of_ofJson h).nodup, names_new h⟩

/-- The response is the latest answer of the chain's own responses, if there is one. -/
theorem response_eq_getLast? (h : ofJson generated document = .ok job) (ex : Executors σ) (s : σ)
    (startedAt : Timestamp) (durationMs : Nat) :
    (job.report ex s startedAt durationMs).1.response =
      ((job.process.trail ex s).filterMap
        (job.flow.trigger.chain.answer? job.scene)).getLast? := by
  obtain ⟨hrun, -⟩ := Chain.run_eq_evaluate job.scene ex job.flow.trigger.chain []
    [(triggerStep, job.seed)] s
  have hresponded := Chain.responded_evaluate job.scene ex job.flow.trigger.chain []
    [(triggerStep, job.seed)] s (fresh h)
  have hanswers : job.flow.trigger.chain.answers job.scene (job.flow.trigger.chain.chronicle
      job.scene ex [] [(triggerStep, job.seed)] s) =
        (job.process.trail ex s).filterMap (job.flow.trigger.chain.answer? job.scene) := by
    rw [trail_eq_history, history_eq_chronicle, List.filterMap_filterMap]
    rfl
  have hreport : (job.report ex s startedAt durationMs).1.response =
      job.lastResponse (job.process.run ex s).1.2 := rfl
  have hscope : (job.process.run ex s).1.2 = (job.flow.trigger.chain.evaluate job.scene ex []
      [(triggerStep, job.seed)] s).scope := congrArg (·.1.2) hrun
  rw [hreport, lastResponse_eq, hscope, hresponded, hanswers, List.getLast?_map]
  cases List.getLast? _ <;> rfl

/-- **The response is that of the last response that ran.** There is one if and only if one of the
chain's own responses came to look, and it is what the output of the latest of them resolved to
when it looked. Nothing that looks inside of a loop is one of them. -/
theorem response_of_last (h : ofJson generated document = .ok job) (ex : Executors σ) (s : σ)
    (startedAt : Timestamp) (durationMs : Nat) :
    let chain := job.flow.trigger.chain
    let trail := job.process.trail ex s
    let response := (job.report ex s startedAt durationMs).1.response
    (response.isSome ↔ ∃ m settings, .look m ∈ trail ∧ chain.response? m.name = some settings) ∧
      (∀ before m after settings, trail = before ++ .look m :: after →
        chain.response? m.name = some settings →
        (∀ later, .look later ∈ after → chain.response? later.name = none) →
          response = some ((job.scene.view m.path m.trace).resolve settings.output)) ∧
      ∀ m, .look m ∈ trail → m.path ≠ [] → chain.response? m.name = none := by
  intro chain trail response
  have hresponse : response = (trail.filterMap (chain.answer? job.scene)).getLast? :=
    response_eq_getLast? h ex s startedAt durationMs
  refine ⟨?_, ?_, ?_⟩
  · rw [hresponse, List.getLast?_isSome]
    exact Chain.answered_iff chain job.scene trail
  · intro before m after settings htrail hsettings hlater
    rw [hresponse, htrail]
    exact Chain.getLast?_answers hsettings hlater
  · intro m hm hpath
    exact Chain.response?_of_not_mem
      (Chain.not_mem_names_of_inside job.scene ex (fresh h) (mem_chronicle hm) hpath)

/-- Whether an event is the look of a step. -/
def isLookOf (name : String) : Event → Bool
  | .look m => m.name = name
  | .call _ _ => false

/-- After the loops over rows and cells the last step answers, and no step after it. -/
theorem response_of_last_grid :
    ofJson "run-1" Grid.document = .ok (Grid.job "run-1") ∧
      let job := Grid.job "run-1"
      let trail := job.process.trail Grid.lenient.executors ⟨[], []⟩
      let report := (job.report Grid.lenient.executors ⟨[], []⟩ ⟨0, 0⟩ 0).1
      ∃ before m, trail = before ++ [.look m] ∧ m.name = "answer" ∧ m.path = [] ∧
        report.response = some ((job.scene.view m.path m.trace).resolve
          (.str "${trigger.rows}")) := by
  obtain ⟨-, hlast, hinside⟩ :=
    response_of_last (Grid.accepted "run-1") Grid.lenient.executors ⟨[], []⟩ ⟨0, 0⟩ 0
  have hends : ((Grid.job "run-1").process.trail Grid.lenient.executors ⟨[], []⟩).getLast?.any
      (isLookOf "answer") = true := by decide +kernel
  obtain ⟨event, hevent, hlook⟩ := Option.any_eq_true _ _ |>.mp hends
  obtain ⟨before, htrail⟩ := List.getLast?_eq_some_iff.mp hevent
  obtain ⟨m, rfl, hname⟩ : ∃ m, event = .look m ∧ m.name = "answer" := by
    cases event with
    | look m => exact ⟨m, rfl, of_decide_eq_true hlook⟩
    | call c r => cases hlook
  have hsettings : (Grid.job "run-1").flow.trigger.chain.response? m.name =
      some ⟨.str "${trigger.rows}"⟩ := by
    rw [hname]
    rfl
  have hm : .look m ∈ (Grid.job "run-1").process.trail Grid.lenient.executors ⟨[], []⟩ := by
    rw [htrail]
    exact List.mem_append_right _ (List.mem_singleton_self _)
  refine ⟨Grid.accepted "run-1", before, m, htrail, hname, ?_, ?_⟩
  · by_contra hpath
    exact Option.some_ne_none _ (hsettings.symm.trans (hinside m hm hpath))
  · exact hlast before m [] _ htrail hsettings fun later hlater => absurd hlater List.not_mem_nil

end Job
end Stepwise

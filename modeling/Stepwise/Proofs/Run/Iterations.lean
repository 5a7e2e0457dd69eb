/-
# Iterations apart from each other

While a loop runs, its record stands in the trace, and with it everything that the iterations
before have left. A body that refers to its loop for the current item alone sees nothing of
that: what it can refer to is the same in any two iterations for the same item, also if these
belong to different runs of the loop over different items. Where executors answer by the
arguments of a call, such a body then does the same in both.

The argument goes from what a step sees to what a chain evaluates to, by induction on the
chain, and a loop inside the body opens the same scope on both sides.

Key definitions: `Executors.Stateless`, `Reference.keepsToItem`, `SeesAlike`,
`StepResult.iteration?`, `StepResult.FailsIn`.
Key theorems: `Chain.evaluate_alike`, `Loop.exists_iteration`, `Loop.iterations_alike`.
-/
import Stepwise.Proofs.Run.Account
import Stepwise.Proofs.Run.Chronicle
import Stepwise.Proofs.Store.Access

namespace Stepwise

variable {σ α : Type}

/-! ### Executors without a memory -/

/-- Every answer depends on the arguments of the call alone. -/
def Executors.Stateless (ex : Executors σ) : Prop :=
  ∀ c s s', (ex.answer c s).1 = (ex.answer c s').1

theorem Executors.Stateless.run_congr {ex : Executors σ} (h : ex.Stateless) (p : Process α)
    (s s' : σ) : p.calls ex s = p.calls ex s' ∧ (p.run ex s).1 = (p.run ex s').1 :=
  Process.run_congr (R := fun _ _ => True) (fun c s s' _ _ => ⟨h c s s', trivial⟩)
    p.usesOnly_true trivial

/-! ### What a body sees of its loop -/

/-- The reference does not lead to the loop, or it leads to the current item of the loop. -/
def Reference.keepsToItem (name reference : String) : Bool :=
  match segments? reference with
  | some (root :: rest) => root ≠ name || rest.head? = some "currentItem"
  | _ => true

/-- The references in the steps of a chain, those of loop bodies included. -/
def Chain.references (chain : Chain) : List String := chain.walk.flatMap Flow.references

/-- Two surroundings show the same, but for what the record of the loop holds beside the
current item. -/
def SeesAlike (name : String) (around around' : Surroundings) : Prop :=
  ∀ (scope : Scope) (root : String) (rest : List String),
    (root = name → rest.head? = some "currentItem") →
      (Named.get? (around.bindings scope) root).bind (·.part? rest) =
        (Named.get? (around'.bindings scope) root).bind (·.part? rest)

namespace SeesAlike

variable {name : String} {around around' : Surroundings}

/-- Inside one more scope of both, names are found in this scope or around it. -/
theorem cons (h : SeesAlike name around around') (e : Enclosure) :
    SeesAlike name (e :: around) (e :: around') := by
  intro scope root rest hrest
  have houter := h (e.fill scope) root rest hrest
  simp only [Surroundings.bindings, Surroundings.scopes, List.flatten_cons, Named.get?_append]
    at houter ⊢
  cases Named.get? scope root with
  | none => exact houter
  | some r => rfl

/-- Two iterations of the loop for one item. -/
theorem opened (name : String) (input input' : Json) (t : Trace)
    (summary summary' : LoopSummary StepResult) (item : Json) :
    SeesAlike name [Loop.opened name input t summary item]
      [Loop.opened name input' t summary' item] := by
  intro scope root rest hrest
  have hfill := fun input summary =>
    Surroundings.fill_opened [] t name input summary item scope
  simp only [Surroundings.fill] at hfill
  simp only [Surroundings.bindings, Surroundings.scopes, List.flatten_cons, List.flatten_nil,
    List.append_nil, Named.get?_append, hfill]
  cases Named.get? scope root with
  | some r => rfl
  | none =>
    by_cases hroot : name = root
    · subst hroot
      obtain ⟨segments, rfl⟩ := List.head?_eq_some_iff.mp (hrest rfl)
      rw [Named.get?_put_self, Named.get?_put_self]
      rfl
    · rw [Named.get?_put_of_ne _ hroot, Named.get?_put_of_ne _ hroot]

/-- References that keep to the item lead to the same value. -/
theorem lookup?_eq (h : SeesAlike name around around') (scene : Scene) (scope : Scope)
    {reference : String} (hreference : Reference.keepsToItem name reference = true) :
    (scene.viewIn around scope).lookup? reference =
      (scene.viewIn around' scope).lookup? reference := by
  unfold Reference.keepsToItem at hreference
  unfold View.lookup?
  cases hsegments : Reference.segments? reference with
  | none => rfl
  | some segments =>
    rw [hsegments] at hreference
    cases segments with
    | nil => rfl
    | cons root rest =>
      have hrest : root = name → rest.head? = some "currentItem" := by
        rintro rfl
        simpa using hreference
      simp only [Option.bind_some, View.find?, Scene.viewIn, Trace.get?_nil,
        h scope root rest hrest]

theorem resolve_eq (h : SeesAlike name around around') (scene : Scene) (scope : Scope)
    {template : Json} (htemplate : ∀ r ∈ template.references, Reference.keepsToItem name r = true) :
    (scene.viewIn around scope).resolve template =
      (scene.viewIn around' scope).resolve template :=
  View.resolve_eq_of_references template fun r hr => h.lookup?_eq scene scope (htemplate r hr)

end SeesAlike

/-! ### What a chain does -/

theorem Chain.evaluateRest_alike {name : String} {e e' : StepEvaluation σ}
    (hresult : e.result = e'.result) (hcalls : e.calls = e'.calls) {scope : Scope}
    {rest rest' : Scope → σ → Evaluation σ}
    (h : ∀ scope s s', (rest scope s).account = (rest' scope s').account) :
    (evaluateRest name e scope rest).account = (evaluateRest name e' scope rest').account := by
  cases hfailed : e.result.isFailed with
  | true =>
    rw [evaluateRest_of_failed hfailed, evaluateRest_of_failed (hresult ▸ hfailed)]
    simp only [Evaluation.account, hresult, hcalls]
  | false =>
    rw [evaluateRest_of_succeeded hfailed, evaluateRest_of_succeeded (hresult ▸ hfailed)]
    have hrest := h (Named.put name e'.result scope) e.state e'.state
    simp only [Evaluation.account, Account.mk.injEq] at hrest
    simp only [Evaluation.account, Evaluation.after, hresult, hcalls, hrest]

namespace Loop

variable {name : String} {around around' : Surroundings}
  {body : Surroundings → Scope → σ → Evaluation σ}

/-- The induction is on the items: each iteration opens the same scope on both sides. -/
theorem evaluateItems_alike {outer : String} (hsees : SeesAlike outer around around')
    (h : ∀ around around' scope s s', SeesAlike outer around around' →
      (body around scope s).account = (body around' scope s').account)
    (input : Json) (scope : Scope) (items : List Json) (summary : LoopSummary StepResult)
    (s s' : σ) :
    let e := evaluateItems name input body around scope summary items s
    let e' := evaluateItems name input body around' scope summary items s'
    e.failure = e'.failure ∧ e.summary = e'.summary ∧ e.calls = e'.calls := by
  induction items generalizing summary s s' with
  | nil => exact ⟨rfl, rfl, rfl⟩
  | cons item items ih =>
    have hbody := h _ _ [] s s' (hsees.cons (opened name input scope summary item))
    simp only [Evaluation.account, Account.mk.injEq] at hbody
    obtain ⟨hcompleted, hscope, hcalls⟩ := hbody
    simp only [evaluateItems, hcompleted, hscope, hcalls]
    split
    · obtain ⟨hfailure, hsummary, hmore⟩ := ih (summary.extend item _) _ _
      exact ⟨hfailure, hsummary, congrArg (_ ++ ·) hmore⟩
    · exact ⟨rfl, rfl, rfl⟩

theorem evaluate_alike {outer : String} (hsees : SeesAlike outer around around')
    (h : ∀ around around' scope s s', SeesAlike outer around around' →
      (body around scope s).account = (body around' scope s').account)
    (scope : Scope) (resolved : Json) (s s' : σ) :
    let e := evaluate name body around scope resolved s
    let e' := evaluate name body around' scope resolved s'
    e.result = e'.result ∧ e.calls = e'.calls := by
  cases resolved with
  | arr items =>
    obtain ⟨hfailure, hsummary, hcalls⟩ := evaluateItems_alike hsees h
      (.obj [("items", .arr items)]) scope items .initial s s'
    exact ⟨by simp only [evaluate, hfailure, hsummary], hcalls⟩
  | null | bool _ | num _ | str _ | obj _ => exact ⟨rfl, rfl⟩

end Loop

namespace Chain

/-- A chain whose references keep to the item of the loop does the same in surroundings that
show the same of the rest. -/
theorem evaluate_alike {ex : Executors σ} (hex : ex.Stateless) (scene : Scene) {name : String} :
    ∀ {chain : Chain}, (∀ r ∈ chain.references, Reference.keepsToItem name r = true) →
      ∀ (around around' : Surroundings) (scope : Scope) (s s' : σ),
        SeesAlike name around around' →
          (chain.evaluate scene ex around scope s).account =
            (chain.evaluate scene ex around' scope s').account
  | .nil, _, _, _, _, _, _, _ => rfl
  | .step label task rest, h, around, around', scope, s, s', hsees => by
    obtain ⟨htask, hrest⟩ := List.forall_mem_append.mp h
    have hperform : task.perform scene (scene.viewIn around scope) =
        task.perform scene (scene.viewIn around' scope) :=
      Task.perform_congr rfl rfl fun template htemplate =>
        hsees.resolve_eq scene scope fun r hr =>
          htask r (List.mem_flatMap.mpr ⟨template, htemplate, hr⟩)
    obtain ⟨hcalls, hresult⟩ :=
      hex.run_congr (task.perform scene (scene.viewIn around' scope)) s s'
    refine evaluateRest_alike ?_ ?_ fun scope s s' =>
      evaluate_alike hex scene hrest around around' scope s s' hsees
    · simp only [Task.evaluate, hperform, hresult]
    · simp only [Task.evaluate, hperform, hcalls]
  | .loop label settings body rest, h, around, around', scope, s, s', hsees => by
    have hwalk : (loop label settings body rest).references =
        settings.items.references ++ (body.references ++ rest.references) := by
      simp only [references, walk, List.cons_append, List.flatMap_cons, List.flatMap_append,
        Flow.references, Work.templates, List.flatMap_nil, List.append_nil]
      rfl
    rw [hwalk, List.forall_mem_append, List.forall_mem_append] at h
    obtain ⟨hitems, hbody, hrest⟩ := h
    have hresolved := hsees.resolve_eq scene scope hitems
    obtain ⟨hresult, hcalls⟩ := Loop.evaluate_alike hsees (evaluate_alike hex scene hbody) scope
      ((scene.viewIn around' scope).resolve settings.items) s s'
    refine evaluateRest_alike ?_ ?_ fun scope s s' =>
      evaluate_alike hex scene hrest around around' scope s s' hsees
    · rw [hresolved, hresult]
    · rw [hresolved, hcalls]

end Chain

/-! ### One iteration -/

/-- The scope recorded for an iteration. -/
def StepResult.iteration? (r : StepResult) (index : Nat) : Option Scope :=
  r.loop?.bind (·.iterations[index]?)

/-- The loop has stopped in this iteration, because it failed. -/
def StepResult.FailsIn (r : StepResult) (index : Nat) : Prop :=
  r.isFailed = true ∧ ∃ summary, r.loop? = some summary ∧ summary.iterations.length = index + 1

namespace Loop

section Evaluation

variable {name : String} {input : Json} {around : Surroundings} {scope : Scope}
  {body : Surroundings → Scope → σ → Evaluation σ}

/-- A loop that fails does so in an iteration of its own. -/
theorem length_lt_of_failure {items : List Json} {summary : LoopSummary StepResult} {s : σ}
    (h : (evaluateItems name input body around scope summary items s).failure.isSome = true) :
    summary.iterations.length <
      (evaluateItems name input body around scope summary items s).summary.iterations.length := by
  cases items with
  | nil => simp [evaluateItems] at h
  | cons item items =>
    have hextend : ∀ inner, summary.iterations.length <
        (summary.extend item inner).iterations.length := fun inner => by simp [LoopSummary.extend]
    rw [evaluateItems]
    split
    · exact Nat.lt_of_lt_of_le (hextend _)
        (isPrefix_evaluateItems items (summary.extend item _) _).length_le
    · exact hextend _

/-- What is recorded for the next item is what the body left for it, and the loop failed there
exactly if the body stopped early. -/
theorem next_iteration (item : Json) (items : List Json) (summary : LoopSummary StepResult)
    (s : σ) :
    let e := evaluateItems name input body around scope summary (item :: items) s
    let own := body (opened name input scope summary item :: around) [] s
    e.summary.iterations[summary.iterations.length]? = some own.scope ∧
      (own.completed = false ↔
        e.failure.isSome = true ∧ e.summary.iterations.length = summary.iterations.length + 1) := by
  intro e own
  have hlength : (summary.extend item own.scope).iterations.length =
      summary.iterations.length + 1 := by simp [LoopSummary.extend]
  have hown : (summary.extend item own.scope).iterations[summary.iterations.length]? =
      some own.scope := summary.getElem?_extend item own.scope
  by_cases hdone : own.completed = true
  · have he : e = (evaluateItems name input body around scope (summary.extend item own.scope)
        items own.state).after own.calls := by
      simp only [e, evaluateItems]
      exact if_pos hdone
    obtain ⟨more, hmore⟩ := isPrefix_evaluateItems items (summary.extend item own.scope) own.state
    have hiterations : e.summary.iterations =
        (summary.extend item own.scope).iterations ++ more := by rw [he, hmore]; rfl
    constructor
    · rw [hiterations, List.getElem?_append_left (by omega), hown]
    · constructor
      · intro h
        rw [hdone] at h
        contradiction
      · rintro ⟨hfailure, hcount⟩
        rw [he] at hfailure hcount
        have hlater := length_lt_of_failure hfailure
        rw [hlength] at hlater
        exact absurd hcount (Nat.ne_of_gt hlater)
  · have he : e = ⟨some (iterationFailure own.scope [] summary.iterations.length),
        summary.extend item own.scope, own.calls, own.state⟩ := by
      simp only [e, evaluateItems]
      exact if_neg hdone
    rw [he]
    exact ⟨hown, fun _ => ⟨rfl, hlength⟩, fun _ => Bool.eq_false_iff.mpr hdone⟩

/-- The same of an item further on. The induction is on the items: where the loop comes to a
later one, it has completed the iteration for the first. -/
theorem exists_iteration {item : Json} {inner : Scope} :
    ∀ {items : List Json} {index : Nat} {summary : LoopSummary StepResult} {s : σ},
      let e := evaluateItems name input body around scope summary items s
      items[index]? = some item →
        e.summary.iterations[summary.iterations.length + index]? = some inner →
          ∃ reached s', let own := body (opened name input scope reached item :: around) [] s'
            inner = own.scope ∧ (own.completed = false ↔ e.failure.isSome = true ∧
              e.summary.iterations.length = summary.iterations.length + index + 1)
  | first :: items, 0, summary, s, hitem, hinner => by
    obtain rfl : first = item := Option.some.inj hitem
    obtain ⟨hscope, hfails⟩ := next_iteration first items summary s
    exact ⟨summary, s, Option.some.inj (hinner.symm.trans hscope), hfails⟩
  | first :: items, index + 1, summary, s, hitem, hinner => by
    have hlength : ∀ inner, (summary.extend first inner).iterations.length =
        summary.iterations.length + 1 := fun inner => by simp [LoopSummary.extend]
    have hcount : summary.iterations.length + (index + 1) =
        summary.iterations.length + 1 + index := by omega
    rw [evaluateItems] at hinner ⊢
    rw [hcount] at hinner ⊢
    split at hinner
    · rename_i hdone
      rw [if_pos hdone]
      rw [← hlength] at hinner ⊢
      exact exists_iteration hitem hinner
    · rw [List.getElem?_eq_none (by rw [hlength]; omega)] at hinner
      contradiction

end Evaluation

/-- The record of a loop that is run by itself in the scope of a trace. -/
def recordIn (scene : Scene) (ex : Executors σ) (name : String) (settings : LoopSettings)
    (body : Chain) (t : Trace) (s : σ) : StepResult :=
  (((Work.loop settings body).perform scene name [] t).run ex s).1.1

section Records

variable {scene : Scene} {ex : Executors σ} {name : String} {body : Chain} {t : Trace}
  {settings settings' : LoopSettings} {xs ys : List Json}

theorem recordIn_eq (hxs : (scene.view [] t).resolve settings.items = .arr xs) (s : σ) :
    let input : Json := .obj [("items", .arr xs)]
    let e := evaluateItems name input (body.evaluate scene ex) [] t .initial xs s
    recordIn scene ex name settings body t s = .ofLoop input e.summary e.failure := by
  obtain ⟨left, hrun, -⟩ := Chain.perform_eq_evaluate scene ex body name [] t (.arr xs) s
  rw [recordIn, Work.perform, hxs]
  exact congrArg (fun p => p.1.1) hrun

/-- What stands in the record of the loop for an item. -/
theorem exists_of_iteration? (hxs : (scene.view [] t).resolve settings.items = .arr xs) {s : σ}
    {index : Nat} {item : Json} (hitem : xs[index]? = some item) {inner : Scope}
    (hinner : (recordIn scene ex name settings body t s).iteration? index = some inner) :
    ∃ input reached s',
      let own := body.evaluate scene ex [opened name input t reached item] [] s'
      inner = own.scope ∧ (own.completed = false ↔
        (recordIn scene ex name settings body t s).FailsIn index) := by
  rw [recordIn_eq hxs s] at hinner ⊢
  rw [StepResult.iteration?, StepResult.loop?_ofLoop, Option.bind_some] at hinner
  have hcount : (LoopSummary.initial : LoopSummary StepResult).iterations.length + index = index :=
    Nat.zero_add index
  obtain ⟨reached, s', hscope, hfails⟩ := exists_iteration hitem (by rw [hcount]; exact hinner)
  refine ⟨_, reached, s', hscope, hfails.trans ?_⟩
  simp only [StepResult.FailsIn, StepResult.isFailed_ofLoop, StepResult.loop?_ofLoop,
    Option.some.injEq, exists_eq_left', hcount]

/-- **Iterations do not influence each other.** The body of a loop, which may hold further
loops, refers to the loop for its current item alone, and the executors answer by the arguments
of a call. The loop runs twice in one trace, whatever this holds, over different items. For an
item that both come to, at whichever place, both record the same, and one fails there exactly
if the other one does. -/
theorem iterations_alike (hex : ex.Stateless)
    (hbody : ∀ r ∈ body.references, Reference.keepsToItem name r = true)
    (hxs : (scene.view [] t).resolve settings.items = .arr xs)
    (hys : (scene.view [] t).resolve settings'.items = .arr ys)
    {i j : Nat} {item : Json} (hi : xs[i]? = some item) (hj : ys[j]? = some item) {s s' : σ}
    {inner inner' : Scope}
    (hinner : (recordIn scene ex name settings body t s).iteration? i = some inner)
    (hinner' : (recordIn scene ex name settings' body t s').iteration? j = some inner') :
    inner = inner' ∧
      ((recordIn scene ex name settings body t s).FailsIn i ↔
        (recordIn scene ex name settings' body t s').FailsIn j) := by
  obtain ⟨input, reached, u, hscope, hfails⟩ := exists_of_iteration? hxs hi hinner
  obtain ⟨input', reached', u', hscope', hfails'⟩ := exists_of_iteration? hys hj hinner'
  have halike := Chain.evaluate_alike hex scene hbody _ _ [] u u'
    (SeesAlike.opened name input input' t reached reached' item)
  simp only [Evaluation.account, Account.mk.injEq] at halike
  obtain ⟨hcompleted, hsame, -⟩ := halike
  exact ⟨by rw [hscope, hscope', hsame], by rw [← hfails, ← hfails', hcompleted]⟩

end Records

/-- The row that comes second in one run comes first in the other, and fails in both. -/
theorem iterations_alike_grid :
    let scene := (Grid.job "run-1").scene
    let t : Trace := [("trigger", .succeed .empty Grid.payload)]
    let r := recordIn scene Grid.strict "rows" ⟨.str "${trigger.rows}"⟩ Grid.row t ()
    let r' := recordIn scene Grid.strict "rows" ⟨.arr [.arr [.nat 2, .nat 3, .nat 4]]⟩ Grid.row t ()
    ∃ inner inner', r.iteration? 1 = some inner ∧ r'.iteration? 0 = some inner' ∧
      inner = inner' ∧ (r.FailsIn 1 ↔ r'.FailsIn 0) := by
  intro scene t r r'
  have hfirst : (r.iteration? 1).isSome = true := by decide +kernel
  have hsecond : (r'.iteration? 0).isSome = true := by decide +kernel
  obtain ⟨inner, hinner⟩ := Option.isSome_iff_exists.mp hfirst
  obtain ⟨inner', hinner'⟩ := Option.isSome_iff_exists.mp hsecond
  exact ⟨inner, inner', hinner, hinner', iterations_alike (fun _ _ _ => rfl) (by decide +kernel)
    rfl rfl rfl rfl hinner hinner'⟩

end Loop
end Stepwise

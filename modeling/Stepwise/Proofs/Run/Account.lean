/-
# What a chain leaves behind

A chain whose names differ appends its records to the scope it runs in. What it appends,
the calls on the way and whether it completed can be told without the rest of the trace
and without who answers the calls: step after step a record and its calls, up to the first
that failed; the record of a loop holds what its body left for one item after another, up
to the first that failed, and that failure is its own.

Every fact about finished runs is one about what chains leave, by induction on the chain.

Key definitions: `Account`, `Chain.Leaves`, `Loop.Recorded`, `Loop.Iterated`.
Key theorems: `Chain.evaluate_leaves`, `Job.report_leaves`.
-/
import Stepwise.Proofs.Flow.Names
import Stepwise.Proofs.Run.Refinement

namespace Stepwise

variable {σ : Type}

/-- What a chain leaves behind. -/
structure Account where
  /-- Whether all steps succeeded. -/
  completed : Bool
  /-- What the chain recorded, in order. -/
  entries : Scope
  calls : List (Call × Reply)

/-- What an evaluation in a scope with nothing in it leaves behind. -/
def Evaluation.account (e : Evaluation σ) : Account := ⟨e.completed, e.scope, e.calls⟩

/-- A step that failed and nothing after it, or one that succeeded and what `rest` allows. -/
inductive Account.Begins (name : String) (calls : List (Call × Reply)) (r : StepResult)
    (rest : Account → Prop) : Account → Prop where
  | failed (h : r.isFailed = true) : Begins name calls r rest ⟨false, [(name, r)], calls⟩
  | succeeded {a : Account} (h : r.isFailed = false) (ha : rest a) :
    Begins name calls r rest ⟨a.completed, (name, r) :: a.entries, calls ++ a.calls⟩

/-- The summary of a loop over items that has run these iterations. -/
def LoopSummary.ofIterations (items : List Json) (scopes : List Scope) :
    LoopSummary StepResult :=
  ⟨max 1 scopes.length, (items.take scopes.length).getLast?, scopes⟩

namespace Loop

/-- What the iterations for items in order leave, each of them what `body` allows: why the
loop stopped early, if it did, the scope of every iteration, and the calls. -/
inductive Iterated (body : Account → Prop) :
    List Json → Option String → List Scope → List (Call × Reply) → Prop where
  | finished : Iterated body [] none [] []
  | completed {item : Json} {items : List Json} {a : Account} {failure : Option String}
      {scopes : List Scope} {calls : List (Call × Reply)} (ha : body a)
      (hdone : a.completed = true) (h : Iterated body items failure scopes calls) :
    Iterated body (item :: items) failure (a.entries :: scopes) (a.calls ++ calls)
  | stopped {item : Json} {items : List Json} {a : Account} {name : String} {r : StepResult}
      {message : String} (ha : body a) (hdone : a.completed = false)
      (hr : Scope.firstFailure? a.entries = some (name, r)) (hm : r.message = some message) :
    Iterated body (item :: items) (some message) [a.entries] a.calls

/-- The calls and the record that a loop can leave. -/
inductive Recorded (body : Account → Prop) : List (Call × Reply) → StepResult → Prop where
  /-- There are no items to loop over. -/
  | refused {v : Json} (h : ∀ items, v ≠ .arr items) :
    Recorded body [] (.fail (.obj [("items", v)])
      ("items must resolve to an array, got " ++ v.sortName))
  | iterated {items : List Json} {failure : Option String} {scopes : List Scope}
      {calls : List (Call × Reply)} (h : Iterated body items failure scopes calls) :
    Recorded body calls (.ofLoop (.obj [("items", .arr items)])
      (.ofIterations items scopes) failure)

end Loop

/-- What a chain can leave behind. -/
def Chain.Leaves (scene : Scene) : Chain → Account → Prop
  | .nil, a => a = ⟨true, [], []⟩
  | .step label task rest, a => ∃ calls r, Task.Recorded scene task calls r ∧
      Account.Begins label.name calls r (Leaves scene rest) a
  | .loop label _ body rest, a => ∃ calls r, Loop.Recorded (Leaves scene body) calls r ∧
      Account.Begins label.name calls r (Leaves scene rest) a

/-! ### What an evaluation leaves -/

/-- A scope that explains a failure has a first failed step with a message. -/
theorem Scope.exists_of_explains {s : Scope} (h : s.explains = true) :
    ∃ name r message, s.firstFailure? = some (name, r) ∧ r.message = some message := by
  unfold explains at h
  cases hfirst : s.firstFailure? with
  | none => simp [hfirst] at h
  | some e =>
    rw [hfirst] at h
    obtain ⟨message, hm⟩ := Option.isSome_iff_exists.mp h
    exact ⟨e.1, e.2, message, rfl, hm⟩

namespace Loop

theorem iterationFailure_eq {s : Scope} {name : String} {r : StepResult} {message : String}
    (hr : s.firstFailure? = some (name, r)) (hm : r.message = some message) (index : Nat) :
    iterationFailure s [] index = message := by
  simp [iterationFailure, Trace.scope?, hr, StepResult.failure, hm]

theorem ofIterations_extend (done items : List Json) (item : Json) {scopes : List Scope}
    (h : scopes.length = done.length) (inner : Scope) :
    (LoopSummary.ofIterations (done ++ item :: items) scopes).extend item inner =
      LoopSummary.ofIterations (done ++ item :: items) (scopes ++ [inner]) := by
  have htake : (done ++ item :: items).take (scopes.length + 1) = done ++ [item] := by
    rw [h, List.take_append, List.take_of_length_le (Nat.le_succ _), Nat.add_sub_cancel_left]
    rfl
  have hmax : max 1 (scopes.length + 1) = scopes.length + 1 := by omega
  simp only [LoopSummary.extend, LoopSummary.ofIterations, List.length_append,
    List.length_singleton, htake, hmax, List.getLast?_concat]

/-- The induction is on the items that are left; `done` are those before, and `scopes` what
their iterations have left. -/
theorem evaluateItems_iterated {allowed : Account → Prop}
    {body : Surroundings → Scope → σ → Evaluation σ}
    (h : ∀ around s, allowed (body around [] s).account)
    (hexplains : ∀ around s, (body around [] s).completed = false →
      (body around [] s).scope.explains = true)
    (name : String) (input : Json) (around : Surroundings) (scope : Scope) :
    ∀ (items done : List Json) (scopes : List Scope) (s : σ), scopes.length = done.length →
      let e := evaluateItems name input body around scope
        (.ofIterations (done ++ items) scopes) items s
      ∃ more, e.summary = .ofIterations (done ++ items) (scopes ++ more) ∧
        Iterated allowed items e.failure more e.calls
  | [], done, scopes, s, _ => ⟨[], by simp [evaluateItems], .finished⟩
  | item :: items, done, scopes, s, hlength => by
    have hallowed := h (opened name input scope
      (.ofIterations (done ++ item :: items) scopes) item :: around) s
    have hwhy := hexplains (opened name input scope
      (.ofIterations (done ++ item :: items) scopes) item :: around) s
    simp only [evaluateItems]
    generalize body (opened name input scope
      (.ofIterations (done ++ item :: items) scopes) item :: around) [] s = e at *
    rw [ofIterations_extend done items item hlength]
    cases hdone : e.completed with
    | true =>
      obtain ⟨more, hsummary, hiterated⟩ := evaluateItems_iterated h hexplains name input around
        scope items (done ++ [item]) (scopes ++ [e.scope]) e.state (by simp [hlength])
      simp only [List.append_assoc, List.singleton_append] at hsummary hiterated
      exact ⟨e.scope :: more, hsummary, .completed hallowed hdone hiterated⟩
    | false =>
      obtain ⟨failed, r, message, hr, hm⟩ := Scope.exists_of_explains (hwhy hdone)
      refine ⟨[e.scope], rfl, ?_⟩
      simp only [Bool.false_eq_true, if_false, iterationFailure_eq hr hm]
      exact .stopped hallowed hdone hr hm

theorem evaluate_recorded {allowed : Account → Prop}
    {body : Surroundings → Scope → σ → Evaluation σ}
    (h : ∀ around s, allowed (body around [] s).account)
    (hexplains : ∀ around s, (body around [] s).completed = false →
      (body around [] s).scope.explains = true)
    (name : String) (around : Surroundings) (scope : Scope) (resolved : Json) (s : σ) :
    let e := Loop.evaluate name body around scope resolved s
    Recorded allowed e.calls e.result := by
  cases resolved with
  | arr items =>
    obtain ⟨scopes, hsummary, hiterated⟩ := evaluateItems_iterated h hexplains name
      (.obj [("items", .arr items)]) around scope items [] [] s rfl
    have hinitial : LoopSummary.ofIterations ([] ++ items) [] = .initial := rfl
    rw [hinitial] at hsummary hiterated
    simp only [Loop.evaluate, hsummary]
    exact .iterated hiterated
  | null | bool _ | num _ | str _ | obj _ => exact .refused fun _ h => by cases h

end Loop

namespace Chain

/-- A record that is new to the scope goes to its end, and so does all that follows. -/
theorem evaluateRest_begins {allowed : Account → Prop} {rest : Scope → σ → Evaluation σ}
    {name : String} {scope : Scope} (e : StepEvaluation σ) (hnew : name ∉ Named.names scope)
    (h : ∀ s, ∃ entries,
      let next := rest (scope ++ [(name, e.result)]) s
      next.scope = scope ++ [(name, e.result)] ++ entries ∧
        allowed ⟨next.completed, entries, next.calls⟩) :
    let whole := evaluateRest name e scope rest
    ∃ entries, whole.scope = scope ++ entries ∧
      Account.Begins name e.calls e.result allowed ⟨whole.completed, entries, whole.calls⟩ := by
  have hput := Named.put_of_not_mem e.result hnew
  cases hf : e.result.isFailed with
  | true =>
    rw [evaluateRest_of_failed hf, hput]
    exact ⟨[(name, e.result)], rfl, .failed hf⟩
  | false =>
    obtain ⟨entries, hscope, hallowed⟩ := h e.state
    rw [evaluateRest_of_succeeded hf, hput]
    exact ⟨(name, e.result) :: entries, by simp [Evaluation.after, hscope],
      .succeeded hf hallowed⟩

/-- In a scope with nothing in it, every name is new. -/
theorem new_in_empty (chain : Chain) : ∀ name ∈ chain.names, name ∉ Named.names ([] : Scope) :=
  fun _ _ => List.not_mem_nil

/-- A chain whose names differ appends what it leaves behind to the scope it runs in. -/
theorem evaluate_leaves (scene : Scene) (ex : Executors σ) :
    ∀ (chain : Chain) (around : Surroundings) (scope : Scope) (s : σ), chain.NamesApart →
      (∀ name ∈ chain.names, name ∉ Named.names scope) →
      let e := chain.evaluate scene ex around scope s
      ∃ entries, e.scope = scope ++ entries ∧
        chain.Leaves scene ⟨e.completed, entries, e.calls⟩
  | .nil, _, scope, _, _, _ => ⟨[], (List.append_nil scope).symm, rfl⟩
  | .step label task rest, around, scope, s, hapart, hnew => by
    obtain ⟨hlabel, hrest⟩ := List.forall_mem_cons.mp hnew
    have hrecorded := Task.recorded_of_yields
      (Process.yields_run ex (task.perform scene (scene.viewIn around scope)) s)
    obtain ⟨entries, hscope, hbegins⟩ := evaluateRest_begins
      (task.evaluate scene ex around scope s) hlabel
      fun s => evaluate_leaves scene ex rest around _ s hapart.2
        (new_after hapart.1 hrest)
    exact ⟨entries, hscope, _, _, hrecorded, hbegins⟩
  | .loop label settings body rest, around, scope, s, hapart, hnew => by
    obtain ⟨hlabel, hrest⟩ := List.forall_mem_cons.mp hnew
    have hbody : ∀ around s, body.Leaves scene (body.evaluate scene ex around [] s).account := by
      intro around s
      obtain ⟨entries, hscope, hleaves⟩ :=
        evaluate_leaves scene ex body around [] s hapart.2.1 (new_in_empty body)
      rw [List.nil_append] at hscope
      rwa [Evaluation.account, hscope]
    have hrecorded := Loop.evaluate_recorded hbody
      (fun around s => explains_evaluate scene ex around body [] s Scope.explained_nil)
      label.name around scope ((scene.viewIn around scope).resolve settings.items) s
    obtain ⟨entries, hscope, hbegins⟩ := evaluateRest_begins
      (Loop.evaluate label.name (body.evaluate scene ex) around scope
        ((scene.viewIn around scope).resolve settings.items) s) hlabel
      fun s => evaluate_leaves scene ex rest around _ s hapart.2.2
        (new_after hapart.1 hrest)
    exact ⟨entries, hscope, _, _, hrecorded, hbegins⟩
where
  new_after {label : String} {r : StepResult} {rest : Chain} {scope : Scope}
      (hlabel : label ∉ rest.names) (h : ∀ name ∈ rest.names, name ∉ Named.names scope) :
      ∀ name ∈ rest.names, name ∉ Named.names (scope ++ [(label, r)]) := by
    intro name hname hmem
    rw [Named.names_append, List.mem_append] at hmem
    rcases hmem with hmem | hmem
    · exact h name hname hmem
    · simp only [Named.names, List.map_cons, List.map_nil, List.mem_singleton] at hmem
      exact hlabel (hmem ▸ hname)

/-- In a scope with nothing in it, all that is there after a chain is what it leaves. -/
theorem leaves_evaluate (scene : Scene) (ex : Executors σ) {chain : Chain}
    (hapart : chain.NamesApart) (around : Surroundings) (s : σ) :
    chain.Leaves scene (chain.evaluate scene ex around [] s).account := by
  obtain ⟨entries, hscope, hleaves⟩ :=
    evaluate_leaves scene ex chain around [] s hapart (new_in_empty chain)
  rw [List.nil_append] at hscope
  rwa [Evaluation.account, hscope]

end Chain

/-! ### What a run leaves -/

/-- No step of an accepted job has a name that references use for something else. -/
theorem Job.notReserved {generated : String} {document : Json} {job : Job}
    (h : ofJson generated document = .ok job) {name : String}
    (hname : name ∈ job.flow.trigger.chain.allNames) : name ∉ reservedNames :=
  (usableNames_of_ofJson h).notReserved name hname

/-- No step of an accepted job has the name under which the trigger is recorded. -/
theorem Job.trigger_not_mem {generated : String} {document : Json} {job : Job}
    (h : ofJson generated document = .ok job) :
    triggerStep ∉ job.flow.trigger.chain.names := fun hmem =>
  notReserved h (Chain.names_subset_allNames _ hmem) (by decide)

/-- The scope of an accepted job begins without a record for any step of the chain. -/
theorem Job.names_new {generated : String} {document : Json} {job : Job}
    (h : ofJson generated document = .ok job) : ∀ name ∈ job.flow.trigger.chain.names,
      name ∉ Named.names [(triggerStep, job.seed)] := by
  intro name hname hmem
  simp only [Named.names, List.map_cons, List.map_nil, List.mem_singleton] at hmem
  exact trigger_not_mem h (hmem ▸ hname)

theorem Job.namesApart {generated : String} {document : Json} {job : Job}
    (h : ofJson generated document = .ok job) : job.flow.trigger.chain.NamesApart :=
  Chain.namesApart_of_nodup (usableNames_of_ofJson h).nodup

/-- After a run of an accepted job, the trace holds the record of the trigger and then what
the chain of the flow leaves. -/
theorem Job.run_leaves {generated : String} {document : Json} {job : Job}
    (h : ofJson generated document = .ok job) (ex : Executors σ) (s : σ) :
    ∃ entries, (job.process.run ex s).1.2 = (triggerStep, job.seed) :: entries ∧
      job.flow.trigger.chain.Leaves job.scene
        ⟨(job.process.run ex s).1.1, entries, job.process.calls ex s⟩ := by
  obtain ⟨hrun, hcalls⟩ := Chain.run_eq_evaluate job.scene ex job.flow.trigger.chain []
    [(triggerStep, job.seed)] s
  obtain ⟨entries, hscope, hleaves⟩ := Chain.evaluate_leaves job.scene ex
    job.flow.trigger.chain [] [(triggerStep, job.seed)] s (namesApart h) (names_new h)
  have hprocess : job.process = job.flow.trigger.chain.run job.scene (Surroundings.path [])
      (Surroundings.fill [] [(triggerStep, job.seed)]) := rfl
  rw [hprocess, hrun, hcalls]
  exact ⟨entries, hscope, hleaves⟩

/-- The report of a run is one on what the chain of the flow leaves. -/
theorem Job.report_leaves {generated : String} {document : Json} {job : Job}
    (h : ofJson generated document = .ok job) (ex : Executors σ) (s : σ)
    (startedAt : Timestamp) (durationMs : Nat) :
    ∃ a : Account, job.flow.trigger.chain.Leaves job.scene a ∧
      (job.process.run ex s).1.1 = a.completed ∧ job.process.calls ex s = a.calls ∧
      (job.report ex s startedAt durationMs).1 =
        job.conclude startedAt durationMs a.completed ((triggerStep, job.seed) :: a.entries) := by
  obtain ⟨entries, htrace, hleaves⟩ := run_leaves h ex s
  refine ⟨_, hleaves, rfl, rfl, ?_⟩
  rw [← htrace]
  rfl

end Stepwise

/-
# The keys that a run uses

Which calls a run makes depends on the replies that it is given. The keys that it reads and
writes are bounded all the same: each of them is in one of the scopes that the storage steps
of the chain name, under the identifiers of the run. A storage step uses one key of its own
scope, other steps use none, and neither does going on from one step to the next.

Key definitions: `Call.key?`, `Process.UsesOnly`, `Chain.storeScopes`.
Key theorems: `Process.UsesOnly.bind`, `Process.run_congr`, `Chain.usesOnly_run`.
-/
import Stepwise.Proofs.Run.Calls
import Stepwise.Run.Chain

namespace Stepwise

variable {σ α β : Type} {allowed : String → Prop}

/-- The key of the store that a call reads or writes. -/
def Call.key? : Call → Option String
  | .get key => some key
  | .put key _ => some key
  | _ => none

namespace Process

/-- The process reads and writes allowed keys only, whatever its calls are answered. -/
def UsesOnly (allowed : String → Prop) : Process α → Prop
  | .done _ => True
  | .look _ next => next.UsesOnly allowed
  | .call c next => (∀ key, c.key? = some key → allowed key) ∧ ∀ r, (next r).UsesOnly allowed

/-- The second process may depend on how the first one ends. -/
theorem UsesOnly.bind {f : α → Process β} (hf : ∀ a, (f a).UsesOnly allowed) :
    ∀ {p : Process α}, p.UsesOnly allowed → (p.bind f).UsesOnly allowed
  | .done a, _ => hf a
  | .look _ next, h => UsesOnly.bind (p := next) hf h
  | .call _ _, h => ⟨h.1, fun r => UsesOnly.bind hf (h.2 r)⟩

/-- Two states that answer the calls on allowed keys alike, and go on to do so, cannot be told
apart by a process that uses these keys. The induction is on the process. -/
theorem run_congr {ex : Executors σ} {R : σ → σ → Prop}
    (h : ∀ c s s', (∀ key, c.key? = some key → allowed key) → R s s' →
      (ex.answer c s).1 = (ex.answer c s').1 ∧ R (ex.answer c s).2 (ex.answer c s').2) :
    ∀ {p : Process α} {s s' : σ}, p.UsesOnly allowed → R s s' →
      p.calls ex s = p.calls ex s' ∧ (p.run ex s).1 = (p.run ex s').1
  | .done _, _, _, _, _ => ⟨rfl, rfl⟩
  | .look _ next, _, _, huses, hstates => run_congr (p := next) h huses hstates
  | .call c next, s, s', huses, hstates => by
    obtain ⟨hreply, hafter⟩ := h c s s' huses.1 hstates
    obtain ⟨hcalls, hresult⟩ := run_congr h (huses.2 (ex.answer c s').1) hafter
    rw [calls_call, calls_call, run_call, run_call, hreply]
    exact ⟨by rw [hcalls], hresult⟩

theorem usesOnly_true : ∀ p : Process α, p.UsesOnly fun _ => True
  | .done _ => trivial
  | .look _ next => usesOnly_true next
  | .call _ next => ⟨fun _ _ => trivial, fun r => usesOnly_true (next r)⟩

theorem UsesOnly.map {p : Process α} (h : p.UsesOnly allowed) (f : α → β) :
    (p.map f).UsesOnly allowed := by
  refine h.bind fun a => ?_
  trivial

end Process

/-- The scope in which a task uses the store, if it does. -/
def Task.storeScope? : Task → Option StoreScope
  | .storage s => some s.scope
  | _ => none

/-- The scope in which an action uses the store, if it does so itself. -/
def Action.storeScope? (a : Action) : Option StoreScope :=
  match a.work with
  | .task task => task.storeScope?
  | .loop _ _ => none

/-- The scopes in which the steps of a chain use the store, those of loop bodies included. -/
def Chain.storeScopes (chain : Chain) : List StoreScope :=
  chain.walk.filterMap Action.storeScope?

/-- Every key of the scope is allowed in a run. -/
def Scene.Allows (scene : Scene) (allowed : String → Prop) (scope : StoreScope) : Prop :=
  ∀ key, allowed (scope.scopedKey scene.flowVersionId scene.executionId key)

variable {scene : Scene}

theorem Call.usesOnly_perform {c : Call} (h : ∀ key, c.key? = some key → allowed key)
    (input : Json) : (c.perform input).UsesOnly allowed :=
  ⟨h, fun _ => trivial⟩

theorem Task.usesOnly_perform {task : Task} (view : View)
    (h : ∀ scope, task.storeScope? = some scope → scene.Allows allowed scope) :
    (task.perform scene view).UsesOnly allowed := by
  cases task with
  | code s => exact Call.usesOnly_perform (fun _ hkey => by cases hkey) _
  | integration s => exact Call.usesOnly_perform (fun _ hkey => by cases hkey) _
  | response s => trivial
  | storage s =>
    have hscope : scene.Allows allowed s.scope := h s.scope rfl
    rw [perform, performStorage]
    obtain ⟨message, -, hact⟩ | ⟨key, -, ⟨-, hact⟩ | ⟨-, hact⟩⟩ :=
      storageAct_cases scene s (view.resolve s.key) (s.value.map view.resolve)
    · rw [hact]
      trivial
    · rw [hact]
      exact Call.usesOnly_perform (fun _ hkey => Option.some.inj hkey ▸ hscope key) _
    · rw [hact]
      exact Call.usesOnly_perform (fun _ hkey => Option.some.inj hkey ▸ hscope key) _

namespace Loop

variable {body : Path → Trace → Process (Bool × Trace)}

/-- The induction is on the items: a loop uses the keys that its body uses. -/
theorem usesOnly_iterate (hbody : ∀ path t, (body path t).UsesOnly allowed) (name : String)
    (path : Path) (items : List Json) (index : Nat) (t : Trace) :
    (iterate name path body index items t).UsesOnly allowed := by
  induction items generalizing index t with
  | nil => trivial
  | cons item items ih =>
    rw [iterate]
    cases Trace.updateLoop t path name (·.enter index item) with
    | none => trivial
    | some t =>
      refine (hbody _ t).bind fun (completed, t) => ?_
      cases completed with
      | false => trivial
      | true => exact ih (index + 1) t

theorem usesOnly_perform (hbody : ∀ path t, (body path t).UsesOnly allowed) (name : String)
    (path : Path) (resolved : Json) (t : Trace) :
    (perform name path body resolved t).UsesOnly allowed := by
  cases resolved with
  | arr items => exact (usesOnly_iterate hbody name path items 0 _).map _
  | _ => trivial

end Loop

namespace Chain

theorem usesOnly_record {next : Trace → Process (Bool × Trace)}
    (hnext : ∀ t, (next t).UsesOnly allowed) (path : Path) (name : String) (r : StepResult)
    (t : Trace) : (record path name r t next).UsesOnly allowed := by
  rw [record]
  cases Trace.insert t path name r with
  | none => trivial
  | some t =>
    by_cases hr : r.isFailed = true
    · simp only [if_pos hr]
      trivial
    · simp only [if_neg hr]
      exact hnext t

theorem storeScopes_step (label : Label) (task : Task) (rest : Chain) :
    (step label task rest).storeScopes = task.storeScope?.toList ++ rest.storeScopes := by
  rw [storeScopes, walk, List.filterMap_cons]
  cases h : task.storeScope? <;> simp [Action.storeScope?, h, storeScopes]

theorem storeScopes_loop (label : Label) (settings : LoopSettings) (body rest : Chain) :
    (loop label settings body rest).storeScopes = body.storeScopes ++ rest.storeScopes := by
  rw [storeScopes, walk, List.cons_append, List.filterMap_cons, List.filterMap_append]
  rfl

/-- A run of a chain uses the keys alone of the scopes that its steps name. -/
theorem usesOnly_run : ∀ {chain : Chain},
    (∀ scope ∈ chain.storeScopes, scene.Allows allowed scope) →
      ∀ (path : Path) (t : Trace), (chain.run scene path t).UsesOnly allowed
  | .nil, _, _, _ => trivial
  | .step label task rest, h, path, t => by
    rw [storeScopes_step, List.forall_mem_append] at h
    have htask := Task.usesOnly_perform (scene.view path t) fun scope hscope =>
      h.1 scope (Option.mem_toList.mpr hscope)
    exact htask.bind fun r => usesOnly_record (usesOnly_run h.2 path) path label.name r t
  | .loop label settings body rest, h, path, t => by
    rw [storeScopes_loop, List.forall_mem_append] at h
    have hloop := Loop.usesOnly_perform (usesOnly_run h.1) label.name path
      ((scene.view path t).resolve settings.items) t
    exact hloop.bind fun (r, t) => usesOnly_record (usesOnly_run h.2 path) path label.name r t

end Chain
end Stepwise

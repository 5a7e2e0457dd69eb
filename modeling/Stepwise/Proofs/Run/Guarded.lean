/-
# Runs that give up

A run has branches for states it is never in: the record of a loop that runs is not in
the trace, there is no scope to record a result in, an iteration or a whole run failed
but no step of it, or a failed step does not say why. The guarded run is the same run,
except that it gives up where one of these branches would be taken. Until it gives up
it does what the run does, so a guarded run that ends with a result shows that the run
takes none of these branches.

Key definitions: `Process.andThen`, `Process.Guards`, `Scope.explains`, `Chain.guarded`,
`Job.guardedReport`.
Key theorems: `Process.Guards.run`, `Chain.guards`.
-/
import Stepwise.Proofs.Run.Calls
import Stepwise.Run.Report

namespace Stepwise

namespace Process

variable {α β σ : Type}

/-- The second process from the result of the first, unless the first gives up. -/
def andThen (p : Process (Option α)) (f : α → Process (Option β)) : Process (Option β) :=
  p.bind fun
    | none => .done none
    | some a => f a

/-- The first process does what the second does until it gives up. -/
inductive Guards : Process (Option α) → Process α → Prop where
  | gaveUp (p : Process α) : Guards (.done none) p
  | done (a : α) : Guards (.done (some a)) (.done a)
  | look {m : Moment} {g : Process (Option α)} {p : Process α} (h : Guards g p) :
    Guards (.look m g) (.look m p)
  | call {c : Call} {g : Reply → Process (Option α)} {p : Reply → Process α}
      (h : ∀ r, Guards (g r) (p r)) : Guards (.call c g) (.call c p)

theorem Guards.andThen {g : Process (Option α)} {p : Process α} (h : Guards g p)
    {g' : α → Process (Option β)} {p' : α → Process β} (h' : ∀ a, Guards (g' a) (p' a)) :
    Guards (g.andThen g') (p.bind p') := by
  induction h with
  | gaveUp p => exact .gaveUp _
  | done a => exact h' a
  | look _ ih => exact .look ih
  | call _ ih => exact .call ih

theorem Guards.bind {g' : α → Process (Option β)} {p' : α → Process β}
    (h' : ∀ a, Guards (g' a) (p' a)) : ∀ p : Process α, Guards (p.bind g') (p.bind p')
  | .done a => h' a
  | .look _ next => .look (bind h' next)
  | .call _ next => .call fun r => bind h' (next r)

/-- A guarded process that ends with a result has run as the other one runs. -/
theorem Guards.run {g : Process (Option α)} {p : Process α} (h : Guards g p)
    (ex : Executors σ) {a : α} : ∀ {s s' : σ}, g.run ex s = (some a, s') →
      p.run ex s = (a, s') ∧ p.calls ex s = g.calls ex s := by
  induction h with
  | gaveUp p =>
    intro s s' hrun
    simp at hrun
  | done b =>
    intro s s' hrun
    simp only [run_done, Prod.mk.injEq, Option.some.injEq] at hrun
    simp [hrun.1, hrun.2]
  | look _ ih =>
    intro s s' hrun
    exact ih hrun
  | call _ ih =>
    intro s s' hrun
    obtain ⟨hr, hc⟩ := ih _ hrun
    exact ⟨hr, congrArg (List.cons _) hc⟩

theorem run_andThen_some {ex : Executors σ} {p : Process (Option α)} {s s' : σ} {a : α}
    (h : p.run ex s = (some a, s')) (f : α → Process (Option β)) :
    (p.andThen f).run ex s = (f a).run ex s' := by
  rw [Process.andThen, run_bind, h]

theorem calls_andThen_some {ex : Executors σ} {p : Process (Option α)} {s s' : σ} {a : α}
    (h : p.run ex s = (some a, s')) (f : α → Process (Option β)) :
    (p.andThen f).calls ex s = p.calls ex s ++ (f a).calls ex s' := by
  rw [Process.andThen, calls_bind, h]

end Process

/-- Whether a step of the scope failed, and the first one that did says why. -/
def Scope.explains (s : Scope) : Bool := (Scope.firstFailure? s).any (·.2.message.isSome)

namespace Loop

/-- As `iterate`, giving up when the record of the loop is missing or an iteration that
failed does not show why. -/
def guardedIterate (name : String) (path : Path)
    (body : Path → Trace → Process (Option (Bool × Trace))) :
    Nat → List Json → Trace → Process (Option (Option String × Trace))
  | _, [], t => .done (some (none, t))
  | index, item :: items, t =>
    match Trace.updateLoop t path name (·.enter index item) with
    | none => .done none
    | some t =>
      let inner := path ++ [(name, index)]
      (body inner t).andThen fun (completed, t) =>
        if completed then guardedIterate name path body (index + 1) items t
        else if (Trace.scope? t inner).any Scope.explains then
          .done (some (some (iterationFailure t inner index), t))
        else .done none

/-- As `conclude`, giving up when the record of the loop is missing. -/
def guardedConclude (name : String) (path : Path) (input : Json) (failure : Option String)
    (t : Trace) : Option (StepResult × Trace) :=
  (Trace.loop? t path name).bind fun summary =>
    (Trace.updateLoop t path name fun _ => .initial).map fun t =>
      (.ofLoop input summary failure, t)

/-- As `perform`, giving up when there is no scope for the record of the loop, too. -/
def guardedPerform (name : String) (path : Path)
    (body : Path → Trace → Process (Option (Bool × Trace))) (resolved : Json) (t : Trace) :
    Process (Option (StepResult × Trace)) :=
  let input := .obj [("items", resolved)]
  match resolved with
  | .arr items =>
    match Trace.insert t path name (.ofLoop input .initial none) with
    | none => .done none
    | some t =>
      (guardedIterate name path body 0 items t).andThen fun (failure, t) =>
        .done (guardedConclude name path input failure t)
  | v =>
    .done (some (.fail input ("items must resolve to an array, got " ++ v.sortName), t))

end Loop

namespace Chain

/-- As `record`, giving up when there is no scope to record in. -/
def guardedRecord (path : Path) (name : String) (r : StepResult) (t : Trace)
    (next : Trace → Process (Option (Bool × Trace))) : Process (Option (Bool × Trace)) :=
  match Trace.insert t path name r with
  | none => .done none
  | some t => if r.isFailed then .done (some (false, t)) else next t

/-- As `run`, giving up where the run would take a branch for a state it is never in. -/
def guarded (scene : Scene) : Chain → Path → Trace → Process (Option (Bool × Trace))
  | .nil, _, t => .done (some (true, t))
  | .step label task rest, path, t =>
    .look ⟨path, label.name, t⟩ <|
      (task.perform scene (scene.view path t)).bind fun r =>
        guardedRecord path label.name r t (guarded scene rest path)
  | .loop label settings body rest, path, t =>
    .look ⟨path, label.name, t⟩ <|
      (Loop.guardedPerform label.name path (guarded scene body)
        ((scene.view path t).resolve settings.items) t).andThen fun (r, t) =>
          guardedRecord path label.name r t (guarded scene rest path)

end Chain

/-- As `Report.ofTrace`, giving up when no step failed although the chain stopped, or the
first failed step does not say why. -/
def Report.guarded (trace : Trace) (completed : Bool) (startedAt : Timestamp)
    (durationMs : Nat) (response : Option Json) : Option Report :=
  match Trace.firstFailure? trace with
  | none =>
    if completed then some (.ofTrace trace completed startedAt durationMs response) else none
  | some (_, r) =>
    if r.message.isSome then some (.ofTrace trace completed startedAt durationMs response)
    else none

/-- As `Job.report`, giving up where the run or its report would take a branch for a state
that no run is in. -/
def Job.guardedReport {σ : Type} (job : Job) (ex : Executors σ) (s : σ)
    (startedAt : Timestamp) (durationMs : Nat) : Option Report × σ :=
  let (outcome, s) :=
    (job.flow.trigger.chain.guarded job.scene [] [(triggerStep, job.seed)]).run ex s
  (outcome.bind fun (completed, trace) =>
    Report.guarded trace completed startedAt durationMs (job.lastResponse trace), s)

namespace Loop

variable {name : String} {path : Path}
  {guarded : Path → Trace → Process (Option (Bool × Trace))}
  {body : Path → Trace → Process (Bool × Trace)}

theorem guardedIterate_guards (h : ∀ path t, (guarded path t).Guards (body path t)) :
    ∀ (index : Nat) (items : List Json) (t : Trace),
      (guardedIterate name path guarded index items t).Guards
        (iterate name path body index items t)
  | _, [], _ => .done _
  | index, item :: items, t => by
    unfold guardedIterate iterate
    cases Trace.updateLoop t path name (·.enter index item) with
    | none => exact .gaveUp _
    | some t =>
      refine (h _ t).andThen fun ⟨completed, t⟩ => ?_
      cases completed with
      | true => exact guardedIterate_guards h (index + 1) items t
      | false =>
        simp only [Bool.false_eq_true, if_false]
        split
        · exact .done _
        · exact .gaveUp _

theorem guardedConclude_guards (input : Json) (failure : Option String) (t : Trace) :
    (Process.done (guardedConclude name path input failure t)).Guards
      (.done (conclude name path input failure t)) := by
  unfold guardedConclude conclude
  cases Trace.loop? t path name with
  | none => exact .gaveUp _
  | some summary =>
    cases Trace.updateLoop t path name fun _ => .initial with
    | none => exact .gaveUp _
    | some t => exact .done _

theorem guardedPerform_guards (h : ∀ path t, (guarded path t).Guards (body path t))
    (resolved : Json) (t : Trace) :
    (guardedPerform name path guarded resolved t).Guards
      (perform name path body resolved t) := by
  cases resolved with
  | arr items =>
    simp only [guardedPerform, perform]
    cases Trace.insert t path name (.ofLoop (.obj [("items", .arr items)]) .initial none) with
    | none => exact .gaveUp _
    | some t =>
      exact (guardedIterate_guards h 0 items t).andThen fun left =>
        guardedConclude_guards _ left.1 left.2
  | null | bool _ | num _ | str _ | obj _ => exact .done _

end Loop

namespace Chain

variable {scene : Scene}

theorem guardedRecord_guards {guarded : Trace → Process (Option (Bool × Trace))}
    {next : Trace → Process (Bool × Trace)} (h : ∀ t, (guarded t).Guards (next t))
    (path : Path) (name : String) (r : StepResult) (t : Trace) :
    (guardedRecord path name r t guarded).Guards (record path name r t next) := by
  unfold guardedRecord record
  cases Trace.insert t path name r with
  | none => exact .gaveUp _
  | some t =>
    cases hr : r.isFailed with
    | true => simpa [hr] using .done _
    | false => simpa [hr] using h t

/-- The guarded run of a chain does what its run does until it gives up. -/
theorem guards : ∀ (chain : Chain) (path : Path) (t : Trace),
    (chain.guarded scene path t).Guards (chain.run scene path t)
  | .nil, _, _ => .done _
  | .step label _ rest, path, t =>
    .look <| Process.Guards.bind
      (fun r => guardedRecord_guards (guards rest path) path label.name r t) _
  | .loop label _ body rest, path, t =>
    .look <| (Loop.guardedPerform_guards (guards body) _ t).andThen fun ⟨r, t⟩ =>
      guardedRecord_guards (guards rest path) path label.name r t

end Chain
end Stepwise

/-
# The history of a run

The trail of a run says when a step looks at the trace and which calls are made. It does
not say when a result is recorded. The telling run does: it is the run, with a mark set
each time the result of a finished step has been recorded. Without these marks it is the
very process that the run is, so its history is the trail of the run and, in their places,
the recordings.

Key definitions: `Entry`, `Mark`, `Telling`, `Telling.forget`, `Telling.history`,
`Chain.telling`, `Job.opening`, `Job.history`.
Key theorems: `Chain.forget_telling`, `Telling.filterMap_history`, `Job.trail_eq_history`.
-/
import Stepwise.Proofs.Run.Calls
import Stepwise.Run.Report

namespace Stepwise

/-- The result of a finished step, just recorded. -/
structure Entry where
  /-- The scope that it is recorded in. -/
  path : Path
  name : String
  result : StepResult
  /-- The trace that now has the result. -/
  trace : Trace

/-- One thing that happens in a run, or is recorded. -/
inductive Mark where
  | look (moment : Moment)
  | call (c : Call) (reply : Reply)
  | record (entry : Entry)

/-- The event of the run that a mark is, unless it is a recording. -/
def Mark.event? : Mark → Option Event
  | .look m => some (.look m)
  | .call c r => some (.call c r)
  | .record _ => none

theorem Mark.eq_look_of_event? {mark : Mark} {m : Moment} (h : mark.event? = some (.look m)) :
    mark = .look m := by
  cases mark with
  | look own =>
    cases h
    rfl
  | call c r => cases h
  | record e => cases h

/-- A process that tells what it records. -/
inductive Telling (α : Type) where
  | done (a : α)
  | look (moment : Moment) (next : Telling α)
  | call (c : Call) (next : Reply → Telling α)
  | record (entry : Entry) (next : Telling α)

namespace Telling

variable {α β σ : Type}

/-- The second process, from the result of the first. -/
def bind : Telling α → (α → Telling β) → Telling β
  | .done a, f => f a
  | .look m next, f => .look m (next.bind f)
  | .call c next, f => .call c fun r => (next r).bind f
  | .record e next, f => .record e (next.bind f)

/-- A process that records nothing. -/
def ofProcess : Process α → Telling α
  | .done a => .done a
  | .look m next => .look m (ofProcess next)
  | .call c next => .call c fun r => ofProcess (next r)

/-- The process, which does not tell what it records. -/
def forget : Telling α → Process α
  | .done a => .done a
  | .look m next => .look m next.forget
  | .call c next => .call c fun r => (next r).forget
  | .record _ next => next.forget

/-- What happens while a process runs, and what it records. -/
def history (ex : Executors σ) : Telling α → σ → List Mark
  | .done _, _ => []
  | .look m next, s => .look m :: next.history ex s
  | .call c next, s =>
    let (r, s) := ex.answer c s
    .call c r :: (next r).history ex s
  | .record e next, s => .record e :: next.history ex s

theorem forget_bind (f : α → Telling β) :
    ∀ p : Telling α, (p.bind f).forget = p.forget.bind fun a => (f a).forget
  | .done _ => rfl
  | .look m next => congrArg (Process.look m) (forget_bind f next)
  | .call c next => congrArg (Process.call c) (funext fun r => forget_bind f (next r))
  | .record _ next => forget_bind f next

theorem forget_ofProcess : ∀ p : Process α, (ofProcess p).forget = p
  | .done _ => rfl
  | .look m next => congrArg (Process.look m) (forget_ofProcess next)
  | .call c next => congrArg (Process.call c) (funext fun r => forget_ofProcess (next r))

/-- The history of the first process comes first, and where it has ended the second goes on. -/
theorem history_bind (ex : Executors σ) (f : α → Telling β) :
    ∀ (p : Telling α) (s : σ),
      (p.bind f).history ex s =
        p.history ex s ++ (f (p.forget.run ex s).1).history ex (p.forget.run ex s).2
  | .done _, _ => rfl
  | .look m next, s => congrArg (Mark.look m :: ·) (history_bind ex f next s)
  | .call c next, s =>
    congrArg (Mark.call c (ex.answer c s).1 :: ·)
      (history_bind ex f (next (ex.answer c s).1) (ex.answer c s).2)
  | .record e next, s => congrArg (Mark.record e :: ·) (history_bind ex f next s)

/-- Without the recordings, the history is the trail. -/
theorem filterMap_history (ex : Executors σ) :
    ∀ (p : Telling α) (s : σ), (p.history ex s).filterMap Mark.event? = p.forget.trail ex s
  | .done _, _ => rfl
  | .look m next, s => congrArg (Event.look m :: ·) (filterMap_history ex next s)
  | .call c next, s =>
    congrArg (Event.call c (ex.answer c s).1 :: ·)
      (filterMap_history ex (next (ex.answer c s).1) (ex.answer c s).2)
  | .record _ next, s => filterMap_history ex next s

end Telling

/-! ### The telling run -/

namespace Loop

variable (name : String) (path : Path)

/-- As `iterate`, for a body that tells what it records. -/
def tellingIterate (body : Path → Trace → Telling (Bool × Trace)) :
    Nat → List Json → Trace → Telling (Option String × Trace)
  | _, [], t => .done (none, t)
  | index, item :: items, t =>
    match Trace.updateLoop t path name (·.enter index item) with
    | none =>
      .done (some ("loop entry '" ++ name ++ "' missing from trace at " ++ Path.text path), t)
    | some t =>
      let inner := path ++ [(name, index)]
      (body inner t).bind fun (completed, t) =>
        if completed then tellingIterate body (index + 1) items t
        else .done (some (iterationFailure t inner index), t)

/-- As `perform`, for a body that tells what it records. -/
def tellingPerform (body : Path → Trace → Telling (Bool × Trace)) (resolved : Json)
    (t : Trace) : Telling (StepResult × Trace) :=
  let input := .obj [("items", resolved)]
  match resolved with
  | .arr items =>
    let t := (Trace.insert t path name (.ofLoop input .initial none)).getD t
    (tellingIterate name path body 0 items t).bind fun (failure, t) =>
      .done (conclude name path input failure t)
  | v => .done (.fail input ("items must resolve to an array, got " ++ v.sortName), t)

end Loop

namespace Chain

/-- As `record`, telling what has been recorded. -/
def tellingRecord (path : Path) (name : String) (r : StepResult) (t : Trace)
    (next : Trace → Telling (Bool × Trace)) : Telling (Bool × Trace) :=
  match Trace.insert t path name r with
  | none => .done (false, t)
  | some t => .record ⟨path, name, r, t⟩ (if r.isFailed then .done (false, t) else next t)

/-- As `run`, telling what is recorded. -/
def telling (scene : Scene) : Chain → Path → Trace → Telling (Bool × Trace)
  | .nil, _, t => .done (true, t)
  | .step label task rest, path, t =>
    .look ⟨path, label.name, t⟩ <|
      (Telling.ofProcess (task.perform scene (scene.view path t))).bind fun r =>
        tellingRecord path label.name r t (telling scene rest path)
  | .loop label settings body rest, path, t =>
    .look ⟨path, label.name, t⟩ <|
      (Loop.tellingPerform label.name path (telling scene body)
        ((scene.view path t).resolve settings.items) t).bind fun (r, t) =>
          tellingRecord path label.name r t (telling scene rest path)

end Chain

/-- What is recorded before the first step of a run. -/
def Job.opening (job : Job) : Entry := ⟨[], triggerStep, job.seed, [(triggerStep, job.seed)]⟩

/-- The telling run of a job, which tells of the trigger first. -/
def Job.telling (job : Job) : Telling (Bool × Trace) :=
  .record job.opening (job.flow.trigger.chain.telling job.scene [] [(triggerStep, job.seed)])

/-- What happens in a run of a job, and what it records. -/
def Job.history {σ : Type} (job : Job) (ex : Executors σ) (s : σ) : List Mark :=
  job.telling.history ex s

/-! ### It is the run -/

namespace Loop

variable {name : String} {path : Path} {telling : Path → Trace → Telling (Bool × Trace)}
  {body : Path → Trace → Process (Bool × Trace)}

theorem forget_tellingIterate (h : ∀ path t, (telling path t).forget = body path t) :
    ∀ (index : Nat) (items : List Json) (t : Trace),
      (tellingIterate name path telling index items t).forget =
        iterate name path body index items t
  | _, [], _ => rfl
  | index, item :: items, t => by
    unfold tellingIterate iterate
    cases Trace.updateLoop t path name (·.enter index item) with
    | none => rfl
    | some t =>
      simp only [Telling.forget_bind, h]
      congr 1
      funext ⟨completed, t⟩
      cases completed with
      | true => exact forget_tellingIterate h (index + 1) items t
      | false => rfl

theorem forget_tellingPerform (h : ∀ path t, (telling path t).forget = body path t)
    (resolved : Json) (t : Trace) :
    (tellingPerform name path telling resolved t).forget =
      perform name path body resolved t := by
  cases resolved with
  | arr items =>
    simp only [tellingPerform, perform, Telling.forget_bind, forget_tellingIterate h]
    rfl
  | null | bool _ | num _ | str _ | obj _ => rfl

end Loop

namespace Chain

variable {scene : Scene}

theorem forget_tellingRecord {telling : Trace → Telling (Bool × Trace)}
    {next : Trace → Process (Bool × Trace)} (h : ∀ t, (telling t).forget = next t)
    (path : Path) (name : String) (r : StepResult) (t : Trace) :
    (tellingRecord path name r t telling).forget = record path name r t next := by
  unfold tellingRecord record
  cases Trace.insert t path name r with
  | none => rfl
  | some t =>
    cases hr : r.isFailed with
    | true => rfl
    | false => exact h t

/-- **The telling run is the run**, as soon as one forgets what it tells. -/
theorem forget_telling : ∀ (chain : Chain) (path : Path) (t : Trace),
    (chain.telling scene path t).forget = chain.run scene path t
  | .nil, _, _ => rfl
  | .step label task rest, path, t => by
    have hrest := forget_tellingRecord (forget_telling rest path) path label.name
    simp only [telling, run, Telling.forget, Telling.forget_bind, Telling.forget_ofProcess, hrest]
  | .loop label settings body rest, path, t => by
    have hrest := forget_tellingRecord (forget_telling rest path) path label.name
    simp only [telling, run, Telling.forget, Telling.forget_bind,
      Loop.forget_tellingPerform (forget_telling body), hrest]

end Chain

/-- The trail of a run is its history without the recordings. -/
theorem Job.trail_eq_history {σ : Type} (job : Job) (ex : Executors σ) (s : σ) :
    job.process.trail ex s = (job.history ex s).filterMap Mark.event? := by
  rw [history, Telling.filterMap_history, telling, Telling.forget, Chain.forget_telling]
  rfl

end Stepwise

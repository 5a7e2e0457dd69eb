/-
# Processes

A process is the behaviour of a run: it looks at its trace whenever a step resolves its
templates, makes calls, goes on with their replies, and ends with a result. Executors
with a state answer the calls; running a process against them gives its result and
their last state. The trail of a run lists what it looked at and what it called.

Key definitions: `Call`, `Reply`, `Moment`, `Process`, `Process.bind`, `Executors`,
`Process.run`, `Event`, `Process.trail`, `Process.perform`.
Key theorems: `Process.bind_done`, `Process.bind_assoc`, `Process.run_bind`,
`Process.perform_answer`.
-/
import Stepwise.Executor.Error
import Stepwise.Trace.Basic

namespace Stepwise

/-- A request of a step to the world outside. -/
inductive Call where
  /-- Run an artifact. -/
  | code (artifact : String) (input : Json)
  /-- Run an action of an integration. -/
  | integration (name action : String) (input : Json)
  /-- Read the value stored under a scoped key. -/
  | get (key : String)
  /-- Store a value under a scoped key. -/
  | put (key : String) (value : Json)
  deriving DecidableEq

/-- The reply to a call: an error, a value, or nothing, if nothing is stored under the
key that was read. -/
abbrev Reply := Except CallError (Option Json)

/-- The moment at which a step resolves its templates. -/
structure Moment where
  /-- Where the step stands. -/
  path : Path
  /-- The step. -/
  name : String
  /-- The trace it sees. -/
  trace : Trace

/-- A run as it is seen from outside. -/
inductive Process (α : Type) where
  /-- The run has ended. -/
  | done (a : α)
  /-- A step looks at the trace. -/
  | look (moment : Moment) (next : Process α)
  /-- A call is made, and the run goes on with the reply. -/
  | call (c : Call) (next : Reply → Process α)

namespace Process

variable {α β γ : Type}

/-- The second process, from the result of the first. -/
def bind : Process α → (α → Process β) → Process β
  | .done a, f => f a
  | .look m next, f => .look m (next.bind f)
  | .call c next, f => .call c fun r => (next r).bind f

/-- The process with its result changed. -/
def map (f : α → β) (p : Process α) : Process β := p.bind fun a => .done (f a)

theorem bind_done : ∀ p : Process α, p.bind .done = p
  | .done _ => rfl
  | .look m next => congrArg (Process.look m) (bind_done next)
  | .call c next => congrArg (Process.call c) (funext fun r => bind_done (next r))

theorem bind_assoc (f : α → Process β) (g : β → Process γ) :
    ∀ p : Process α, (p.bind f).bind g = p.bind fun a => (f a).bind g
  | .done _ => rfl
  | .look m next => congrArg (Process.look m) (bind_assoc f g next)
  | .call c next => congrArg (Process.call c) (funext fun r => bind_assoc f g (next r))

end Process

/-- What answers the calls of a run. `σ` is the state it keeps between them. -/
structure Executors (σ : Type) where
  code : String → Json → σ → Except CallError Json × σ
  integration : String → String → Json → σ → Except CallError Json × σ
  get : String → σ → Except CallError (Option Json) × σ
  put : String → Json → σ → Except CallError Json × σ

namespace Executors

variable {σ : Type}

/-- The reply to a call, and the state after it. -/
def answer (ex : Executors σ) : Call → σ → Reply × σ
  | .code artifact input, s =>
    let (r, s) := ex.code artifact input s
    (r.map some, s)
  | .integration name action input, s =>
    let (r, s) := ex.integration name action input s
    (r.map some, s)
  | .get key, s => ex.get key s
  | .put key value, s =>
    let (r, s) := ex.put key value s
    (r.map some, s)

end Executors

/-- One thing that happens in a run. -/
inductive Event where
  | look (moment : Moment)
  | call (c : Call) (reply : Reply)

namespace Process

variable {α β σ : Type}

/-- The result of a process against executors in a state, and their state after it. -/
def run (ex : Executors σ) : Process α → σ → α × σ
  | .done a, s => (a, s)
  | .look _ next, s => next.run ex s
  | .call c next, s =>
    let (r, s) := ex.answer c s
    (next r).run ex s

/-- What happens while a process runs. -/
def trail (ex : Executors σ) : Process α → σ → List Event
  | .done _, _ => []
  | .look m next, s => .look m :: next.trail ex s
  | .call c next, s =>
    let (r, s) := ex.answer c s
    .call c r :: (next r).trail ex s

theorem run_bind (ex : Executors σ) (f : α → Process β) :
    ∀ (p : Process α) (s : σ),
      (p.bind f).run ex s = (f (p.run ex s).1).run ex (p.run ex s).2
  | .done _, _ => rfl
  | .look _ next, s => run_bind ex f next s
  | .call c next, s => run_bind ex f (next (ex.answer c s).1) (ex.answer c s).2

/-- The result of a process whose calls are answered in a monad. -/
def perform {m : Type → Type} [Monad m] (answer : Call → m Reply) : Process α → m α
  | .done a => pure a
  | .look _ next => next.perform answer
  | .call c next => answer c >>= fun r => (next r).perform answer

/-- Executors with a state answer in the monad of that state. -/
theorem perform_answer (ex : Executors σ) :
    ∀ (p : Process α) (s : σ),
      (p.perform (m := StateM σ) ex.answer).run s = p.run ex s
  | .done _, _ => rfl
  | .look _ next, s => perform_answer ex next s
  | .call c next, s => perform_answer ex (next (ex.answer c s).1) (ex.answer c s).2

end Process
end Stepwise

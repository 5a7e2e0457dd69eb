/-
# The calls of a process

Of what happens while a process runs, the calls with their replies are what the world
outside sees. A process that goes on from the result of another makes the calls of the
one and then those of the other. Which calls and replies a process can have and what
they lead to does not depend on who answers: `Process.Yields` says it for any replies.

Key definitions: `Process.calls`, `Process.Yields`.
Key theorems: `Process.calls_bind`, `Process.yields_run`.
-/
import Stepwise.Run.Process

namespace Stepwise

/-- The call that an event is, with its reply. -/
def Event.call? : Event → Option (Call × Reply)
  | .look _ => none
  | .call c r => some (c, r)

namespace Process

variable {α β σ : Type}

/-- The calls a process makes against executors in a state, in order, with the replies. -/
def calls (ex : Executors σ) (p : Process α) (s : σ) : List (Call × Reply) :=
  (p.trail ex s).filterMap Event.call?

@[simp] theorem run_done (ex : Executors σ) (a : α) (s : σ) :
    (done a : Process α).run ex s = (a, s) := rfl

@[simp] theorem run_look (ex : Executors σ) (m : Moment) (next : Process α) (s : σ) :
    (look m next).run ex s = next.run ex s := rfl

@[simp] theorem run_call (ex : Executors σ) (c : Call) (next : Reply → Process α) (s : σ) :
    (call c next).run ex s = (next (ex.answer c s).1).run ex (ex.answer c s).2 := rfl

@[simp] theorem calls_done (ex : Executors σ) (a : α) (s : σ) :
    (done a : Process α).calls ex s = [] := rfl

@[simp] theorem calls_look (ex : Executors σ) (m : Moment) (next : Process α) (s : σ) :
    (look m next).calls ex s = next.calls ex s := rfl

@[simp] theorem calls_call (ex : Executors σ) (c : Call) (next : Reply → Process α) (s : σ) :
    (call c next).calls ex s =
      (c, (ex.answer c s).1) :: (next (ex.answer c s).1).calls ex (ex.answer c s).2 := rfl

/-- The calls of the first process come first, and its last state is where the second
goes on. -/
theorem calls_bind (ex : Executors σ) (f : α → Process β) :
    ∀ (p : Process α) (s : σ),
      (p.bind f).calls ex s =
        p.calls ex s ++ (f (p.run ex s).1).calls ex (p.run ex s).2
  | .done _, _ => rfl
  | .look _ next, s => calls_bind ex f next s
  | .call c next, s =>
    congrArg ((c, (ex.answer c s).1) :: ·)
      (calls_bind ex f (next (ex.answer c s).1) (ex.answer c s).2)

/-- The process can make these calls with these replies and then end with a result. -/
inductive Yields : Process α → List (Call × Reply) → α → Prop where
  | done (a : α) : Yields (.done a) [] a
  | look {m : Moment} {next : Process α} {calls : List (Call × Reply)} {a : α}
      (h : Yields next calls a) : Yields (.look m next) calls a
  | call {c : Call} {next : Reply → Process α} {r : Reply} {calls : List (Call × Reply)}
      {a : α} (h : Yields (next r) calls a) : Yields (.call c next) ((c, r) :: calls) a

/-- A run against executors is one of the runs that the process can have. -/
theorem yields_run (ex : Executors σ) :
    ∀ (p : Process α) (s : σ), p.Yields (p.calls ex s) (p.run ex s).1
  | .done a, _ => .done a
  | .look _ next, s => .look (yields_run ex next s)
  | .call c next, s => .call (yields_run ex (next (ex.answer c s).1) (ex.answer c s).2)

end Process
end Stepwise

/-
# Chains one after the other

A chain followed by another runs as the first and then, if that completes, as the second from
the trace and the state that the first has left. So what stands behind the first part of a
chain changes nothing of what that part does, sees and records: its history is where the
history of the whole begins.

Key definitions: `Telling.onward`.

Key theorems: `Telling.bind_assoc`, `Chain.telling_append`, `Chain.runs_append`.
-/
import Stepwise.Proofs.Run.Chronicle

namespace Stepwise

variable {σ : Type}

namespace Telling

variable {α β γ : Type}

theorem bind_assoc (f : α → Telling β) (g : β → Telling γ) :
    ∀ p : Telling α, (p.bind f).bind g = p.bind fun a => (f a).bind g
  | .done _ => rfl
  | .look m next => congrArg (Telling.look m) (bind_assoc f g next)
  | .call c next => congrArg (Telling.call c) (funext fun r => bind_assoc f g (next r))
  | .record e next => congrArg (Telling.record e) (bind_assoc f g next)

/-- What comes after a chain: the next if it has completed, and nothing otherwise. -/
def onward (next : Trace → Telling (Bool × Trace)) : Bool × Trace → Telling (Bool × Trace)
  | (true, t) => next t
  | (false, t) => .done (false, t)

end Telling

namespace Chain

/-- A step that is recorded and does not fail leads on through the rest; any other ends both
the rest and what comes after it. -/
theorem bind_tellingRecord (path : Path) (name : String) (r : StepResult) (t : Trace)
    (rest next : Trace → Telling (Bool × Trace)) :
    (tellingRecord path name r t rest).bind (Telling.onward next) =
      tellingRecord path name r t fun t => (rest t).bind (Telling.onward next) := by
  unfold tellingRecord
  cases Trace.insert t path name r with
  | none => rfl
  | some t => cases hfailed : r.isFailed <;> rfl

/-- The telling run of two chains is that of the first, and then that of the second. The
induction is on the first. -/
theorem telling_append (scene : Scene) (rest : Chain) :
    ∀ (first : Chain) (path : Path) (t : Trace),
      (first.append rest).telling scene path t =
        (first.telling scene path t).bind (Telling.onward (rest.telling scene path))
  | .nil, _, _ => rfl
  | .step label task more, path, t => by
    simp only [append, telling, Telling.bind, Telling.bind_assoc, bind_tellingRecord,
      funext (telling_append scene rest more path)]
  | .loop label settings body more, path, t => by
    simp only [append, telling, Telling.bind, Telling.bind_assoc, bind_tellingRecord,
      funext (telling_append scene rest more path)]

theorem run_append_eq_bind (scene : Scene) (first rest : Chain) (path : Path) (t : Trace) :
    (first.append rest).run scene path t =
      (first.run scene path t).bind fun a =>
        (Telling.onward (rest.telling scene path) a).forget := by
  rw [← forget_telling first, ← Telling.forget_bind, ← telling_append, forget_telling]

theorem history_append (scene : Scene) (ex : Executors σ) (first rest : Chain) (path : Path)
    (t : Trace) (s : σ) :
    let ended := (first.run scene path t).run ex s
    ((first.append rest).telling scene path t).history ex s =
      (first.telling scene path t).history ex s ++
        (Telling.onward (rest.telling scene path) ended.1).history ex ended.2 := by
  rw [telling_append, Telling.history_bind, forget_telling]

/-- **Chains compose.** A chain followed by another does what the first does. If that completes,
the second goes on from the trace and the state that the first has left, and the outcome is that
of the second; otherwise that was all. What happens and is recorded on the way is what happens
and is recorded in the first, and then in the second. -/
theorem runs_append (scene : Scene) (ex : Executors σ) (first rest : Chain) (path : Path)
    (t : Trace) (s : σ) :
    let begun := first.run scene path t
    let whole := (first.append rest).run scene path t
    let begunHistory := (first.telling scene path t).history ex s
    let wholeHistory := ((first.append rest).telling scene path t).history ex s
    match begun.run ex s with
    | ((true, t'), s') =>
      let ended := rest.run scene path t'
      whole.run ex s = ended.run ex s' ∧ whole.calls ex s = begun.calls ex s ++ ended.calls ex s' ∧
        wholeHistory = begunHistory ++ (rest.telling scene path t').history ex s'
    | ((false, t'), s') =>
      whole.run ex s = ((false, t'), s') ∧ whole.calls ex s = begun.calls ex s ∧
        wholeHistory = begunHistory := by
  intro begun whole begunHistory wholeHistory
  have hrun : whole = begun.bind _ := run_append_eq_bind scene first rest path t
  have hhistory : wholeHistory = begunHistory ++ _ :=
    history_append scene ex first rest path t s
  rw [hrun, Process.run_bind, Process.calls_bind, hhistory]
  obtain ⟨⟨completed, t'⟩, s'⟩ := begun.run ex s
  cases completed with
  | true =>
    have hended : (Telling.onward (rest.telling scene path) (true, t')).forget =
        rest.run scene path t' := forget_telling rest path t'
    rw [hended]
    exact ⟨rfl, rfl, rfl⟩
  | false => exact ⟨rfl, List.append_nil _, List.append_nil _⟩

end Chain
end Stepwise

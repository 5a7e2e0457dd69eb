/-
# The looks of a run

Whenever a run looks, it goes on with the work of the action that looks: that of the whole
chain or of the body of a loop, and with what the action sees from where it stands. So what
can be said of the work of actions can be said of everything that a run resolves.

Key definitions: `Process.Looks`, `Action.Begins`.

Key theorems: `Process.exists_looks`, `Process.Looks.of_bind`, `Chain.begins_of_looks`.
-/
import Stepwise.Proofs.Run.Chronicle

namespace Stepwise

variable {σ : Type}

namespace Process

variable {α β : Type} {ex : Executors σ}

/-- A process that begins in a state comes to look at a moment, and then goes on as another
process in a later state. -/
inductive Looks (ex : Executors σ) : Process α → σ → Moment → Process α → σ → Prop where
  | here {m : Moment} {next : Process α} {s : σ} : Looks ex (.look m next) s m next s
  | look {other m : Moment} {p next : Process α} {s s' : σ} (h : Looks ex p s m next s') :
    Looks ex (.look other p) s m next s'
  | call {c : Call} {p : Reply → Process α} {next : Process α} {m : Moment} {s s' : σ}
    (h : Looks ex (p (ex.answer c s).1) (ex.answer c s).2 m next s') :
    Looks ex (.call c p) s m next s'

theorem Looks.mem_trail {p next : Process α} {s s' : σ} {m : Moment}
    (h : p.Looks ex s m next s') : .look m ∈ p.trail ex s := by
  induction h with
  | here => exact List.mem_cons_self
  | look _ ih => exact List.mem_cons_of_mem _ ih
  | call _ ih => exact List.mem_cons_of_mem _ ih

/-- Each look in the trail is one that the process comes to. -/
theorem exists_looks {m : Moment} : ∀ {p : Process α} {s : σ}, .look m ∈ p.trail ex s →
    ∃ next s', p.Looks ex s m next s'
  | .done _, _, h => absurd h List.not_mem_nil
  | .look other p, s, h => by
    rcases List.mem_cons.mp h with heq | h
    · cases heq
      exact ⟨p, s, .here⟩
    · obtain ⟨next, s', hlooks⟩ := exists_looks h
      exact ⟨next, s', .look hlooks⟩
  | .call c p, s, h => by
    rcases List.mem_cons.mp h with heq | h
    · contradiction
    · obtain ⟨next, s', hlooks⟩ := exists_looks h
      exact ⟨next, s', .call hlooks⟩

/-- One process after another looks in the first, or else in the second. -/
theorem Looks.of_bind {f : α → Process β} {m : Moment} {next : Process β} {s' : σ} :
    ∀ {p : Process α} {s : σ}, (p.bind f).Looks ex s m next s' →
      (∃ p', p.Looks ex s m p' s' ∧ next = p'.bind f) ∨
        ∃ a s'', (f a).Looks ex s'' m next s'
  | .done a, s, h => .inr ⟨a, s, h⟩
  | .look other p, s, h => by
    cases h with
    | here => exact .inl ⟨p, .here, rfl⟩
    | look h =>
      rcases of_bind h with ⟨p', hlooks, hnext⟩ | hafter
      · exact .inl ⟨p', .look hlooks, hnext⟩
      · exact .inr hafter
  | .call c p, s, h => by
    cases h with
    | call h =>
      rcases of_bind h with ⟨p', hlooks, hnext⟩ | hafter
      · exact .inl ⟨p', .call hlooks, hnext⟩
      · exact .inr hafter

end Process

/-! ### A step that looks begins its work -/

/-- From the look on the process does what the action does there, and then something else. -/
def Action.Begins {α : Type} (scene : Scene) (a : Action) (m : Moment) (next : Process α) :
    Prop :=
  a.label.name = m.name ∧ ∃ after, next = (a.work.perform scene m.name m.path m.trace).bind after

theorem Action.Begins.bind {α β : Type} {scene : Scene} {a : Action} {m : Moment}
    {next : Process α} (h : a.Begins scene m next) (f : α → Process β) :
    a.Begins scene m (next.bind f) := by
  obtain ⟨hname, after, rfl⟩ := h
  exact ⟨hname, fun r => (after r).bind f, Process.bind_assoc _ _ _⟩

variable {scene : Scene} {ex : Executors σ} {m : Moment} {s s' : σ} {actions : List Action}

namespace Loop

variable {body : Path → Trace → Process (Bool × Trace)} {name : String} {path : Path}

/-- A loop looks only in its body. The induction is on the items. -/
theorem begins_of_looks (hbody : ∀ path t s next, (body path t).Looks ex s m next s' →
    ∃ a ∈ actions, a.Begins scene m next) :
    ∀ {items : List Json} {index : Nat} {t : Trace} {s : σ}
      {next : Process (Option String × Trace)},
      (iterate name path body index items t).Looks ex s m next s' →
        ∃ a ∈ actions, a.Begins scene m next
  | [], index, t, s, next, h => nomatch h
  | item :: items, index, t, s, next, h => by
    unfold iterate at h
    split at h
    · contradiction
    · rcases h.of_bind with ⟨next, hlooks, rfl⟩ | ⟨⟨completed, t⟩, s'', hlooks⟩
      · obtain ⟨a, ha, hbegins⟩ := hbody _ _ _ _ hlooks
        exact ⟨a, ha, hbegins.bind _⟩
      · cases completed with
        | true => exact begins_of_looks hbody hlooks
        | false => contradiction

theorem begins_of_looks_perform (hbody : ∀ path t s next, (body path t).Looks ex s m next s' →
    ∃ a ∈ actions, a.Begins scene m next) {resolved : Json} {t : Trace}
    {next : Process (StepResult × Trace)}
    (h : (perform name path body resolved t).Looks ex s m next s') :
    ∃ a ∈ actions, a.Begins scene m next := by
  unfold perform at h
  split at h
  · simp only [Process.map] at h
    rcases h.of_bind with ⟨p, hlooks, rfl⟩ | ⟨_, _, hlooks⟩
    · obtain ⟨a, ha, hbegins⟩ := begins_of_looks hbody hlooks
      exact ⟨a, ha, hbegins.bind _⟩
    · contradiction
  · contradiction

end Loop

namespace Chain

/-- Recording looks at nothing, so a look after it is one of what follows. -/
theorem exists_of_looks_record {path : Path} {name : String} {r : StepResult} {t : Trace}
    {rest : Trace → Process (Bool × Trace)} {next : Process (Bool × Trace)}
    (h : (record path name r t rest).Looks ex s m next s') :
    ∃ t, (rest t).Looks ex s m next s' := by
  unfold record at h
  split at h
  · contradiction
  · split at h
    · contradiction
    · exact ⟨_, h⟩

/-- Whenever a chain looks, one of its actions, or of those in the bodies of its loops, begins
its work. The induction is on the chain. -/
theorem begins_of_looks : ∀ {chain : Chain} {path : Path} {t : Trace} {s : σ}
    {next : Process (Bool × Trace)}, (chain.run scene path t).Looks ex s m next s' →
      ∃ a ∈ chain.walk, a.Begins scene m next
  | .nil, _, _, _, _, h => nomatch h
  | .step label task rest, path, t, s, next, h => by
    cases h with
    | here =>
      refine ⟨_, List.mem_cons_self, rfl, fun r =>
        record path label.name r.1 r.2 (run scene rest path), ?_⟩
      rw [Work.perform, Process.map, Process.bind_assoc]
      rfl
    | look h =>
      rcases h.of_bind with ⟨p, hlooks, -⟩ | ⟨r, s'', hlooks⟩
      · obtain ⟨c, r, heq⟩ := task.trail_perform scene (scene.view path t) ex s _ hlooks.mem_trail
        contradiction
      · obtain ⟨t, hlooks⟩ := exists_of_looks_record hlooks
        obtain ⟨a, ha, hbegins⟩ := begins_of_looks hlooks
        exact ⟨a, List.mem_cons_of_mem _ ha, hbegins⟩
  | .loop label settings body rest, path, t, s, next, h => by
    cases h with
    | here => exact ⟨_, List.mem_cons_self, rfl, _, rfl⟩
    | look h =>
      rcases h.of_bind with ⟨p, hlooks, rfl⟩ | ⟨⟨r, t⟩, s'', hlooks⟩
      · obtain ⟨a, ha, hbegins⟩ :=
          Loop.begins_of_looks_perform (fun _ _ _ _ => begins_of_looks) hlooks
        exact ⟨a, List.mem_cons_of_mem _ (List.mem_append_left _ ha), hbegins.bind _⟩
      · obtain ⟨t, hlooks⟩ := exists_of_looks_record hlooks
        obtain ⟨a, ha, hbegins⟩ := begins_of_looks hlooks
        exact ⟨a, List.mem_cons_of_mem _ (List.mem_append_right _ ha), hbegins⟩

end Chain

end Stepwise

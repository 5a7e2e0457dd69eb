/-
# Runs side by side

Two runs that share a store take their steps in any order, and each call is answered in the
state that all the calls before it have left. If the runs are of different identifiers without
a slash and their steps use the store in the scope of the run, then no key is used by both.
So what one run writes the other one does not see: from any point on, each run goes on just
as it does alone, and the store holds the writes of both.

Key definitions: `Underway`, `SideBySide.Step`, `Underway.Follows`, `SideBySide.Apart`,
`SideBySide.Isolated`.
Key theorems: `SideBySide.wellFounded_step`, `SideBySide.Apart.step`, `Job.runs_isolated`.
-/
import Mathlib.Logic.Relation
import Mathlib.Order.GameAdd
import Stepwise.Proofs.Store.Keys
import Stepwise.Proofs.Store.Shared
import Stepwise.Run.Report

namespace Stepwise

variable {σ α β : Type}

/-! ### Taking turns -/

/-- A process that has made some calls. -/
structure Underway (α : Type) where
  calls : List (Call × Reply)
  rest : Process α

/-- One step of a process: it looks at its trace, or it makes a call. -/
inductive Underway.Step (ex : Executors σ) : Underway α → σ → Underway α → σ → Prop where
  | look (calls : List (Call × Reply)) (moment : Moment) (next : Process α) (s : σ) :
    Step ex ⟨calls, .look moment next⟩ s ⟨calls, next⟩ s
  | call (calls : List (Call × Reply)) (c : Call) (next : Reply → Process α) (s : σ) :
    Step ex ⟨calls, .call c next⟩ s
      ⟨calls ++ [(c, (ex.answer c s).1)], next (ex.answer c s).1⟩ (ex.answer c s).2

/-- Two processes and the state of the executors that they share. -/
structure SideBySide (σ α β : Type) where
  left : Underway α
  right : Underway β
  state : σ

namespace SideBySide

/-- The two processes before their first steps. -/
def start (p : Process α) (q : Process β) (s : σ) : SideBySide σ α β := ⟨⟨[], p⟩, ⟨[], q⟩, s⟩

/-- Either process takes a step. -/
inductive Step (ex : Executors σ) : SideBySide σ α β → SideBySide σ α β → Prop where
  | left {u u' : Underway α} {s s' : σ} (v : Underway β) (h : u.Step ex s u' s') :
    Step ex ⟨u, v, s⟩ ⟨u', v, s'⟩
  | right {v v' : Underway β} {s s' : σ} (u : Underway α) (h : v.Step ex s v' s') :
    Step ex ⟨u, v, s⟩ ⟨u, v', s'⟩

/-- The same two processes, the other way round. -/
def swap (both : SideBySide σ α β) : SideBySide σ β α := ⟨both.right, both.left, both.state⟩

end SideBySide

/-- What is left of a process after one step of it. -/
inductive Process.Next : Process α → Process α → Prop where
  | look (moment : Moment) (next : Process α) : Next next (.look moment next)
  | call (c : Call) (next : Reply → Process α) (r : Reply) : Next (next r) (.call c next)

theorem Process.wellFounded_next : WellFounded (Next (α := α)) := by
  refine ⟨fun p => ?_⟩
  induction p with
  | done a => exact ⟨_, fun _ h => nomatch h⟩
  | look moment next ih =>
    refine ⟨_, fun rest h => ?_⟩
    cases h
    exact ih
  | call c next ih =>
    refine ⟨_, fun rest h => ?_⟩
    cases h
    exact ih _

theorem Underway.Step.next {ex : Executors σ} {u u' : Underway α} {s s' : σ}
    (h : u.Step ex s u' s') : Process.Next u'.rest u.rest := by
  cases h with
  | look calls moment next => exact .look moment next
  | call calls c next => exact .call c next _

/-- A process that has not ended takes a step. -/
theorem Underway.ended_or_step (ex : Executors σ) (u : Underway α) (s : σ) :
    (∃ a, u.rest = .done a) ∨ ∃ u' s', u.Step ex s u' s' := by
  obtain ⟨calls, rest⟩ := u
  cases rest with
  | done a => exact .inl ⟨a, rfl⟩
  | look moment next => exact .inr ⟨_, _, .look calls moment next s⟩
  | call c next => exact .inr ⟨_, _, .call calls c next s⟩

namespace SideBySide

/-- The two processes do not go on for ever, whoever takes the steps. -/
theorem wellFounded_step (ex : Executors σ) :
    WellFounded fun after before : SideBySide σ α β => before.Step ex after := by
  refine Subrelation.wf (fun {after before} h => ?_)
    (InvImage.wf (fun both : SideBySide σ α β => (both.left.rest, both.right.rest))
      (Process.wellFounded_next.prod_gameAdd Process.wellFounded_next))
  cases h with
  | left v h => exact .fst h.next
  | right u h => exact .snd h.next

/-- As long as one of the two has not ended, there is a step. -/
theorem ended_or_step (ex : Executors σ) (both : SideBySide σ α β) :
    (∃ a b, both.left.rest = .done a ∧ both.right.rest = .done b) ∨
      ∃ after, both.Step ex after := by
  obtain ⟨u, v, s⟩ := both
  rcases u.ended_or_step ex s with ⟨a, ha⟩ | ⟨u', s', hstep⟩
  · rcases v.ended_or_step ex s with ⟨b, hb⟩ | ⟨v', s', hstep⟩
    · exact .inl ⟨a, b, ha, hb⟩
    · exact .inr ⟨_, .right u hstep⟩
  · exact .inr ⟨_, .left v hstep⟩

end SideBySide

/-! ### One of the two -/

/-- From here on the process does what it does from its first step in another state. -/
structure Underway.Follows (ex : Executors σ) (p : Process α) (first : σ) (u : Underway α)
    (s : σ) : Prop where
  calls : p.calls ex first = u.calls ++ u.rest.calls ex s
  result : (p.run ex first).1 = (u.rest.run ex s).1

namespace Underway

variable {ex : Executors σ} {p : Process α} {first s s' : σ} {u u' : Underway α}

/-- Its own steps are those of the run alone. -/
theorem Follows.step (h : u.Follows ex p first s) (hstep : u.Step ex s u' s') :
    u'.Follows ex p first s' := by
  cases hstep with
  | look calls moment next => exact ⟨h.calls, h.result⟩
  | call calls c next =>
    refine ⟨?_, h.result⟩
    rw [h.calls, Process.calls_call, List.append_assoc, List.singleton_append]

variable {services : Services} {allowed : String → Prop} {store store' before : Store}

/-- What happens under other keys does not matter. -/
theorem Follows.of_agree (h : u.Follows services.onStore p before store)
    (huses : u.rest.UsesOnly allowed) (hagree : ∀ key, allowed key → store key = store' key) :
    u.Follows services.onStore p before store' := by
  obtain ⟨hcalls, hresult⟩ := services.run_congr huses hagree
  exact ⟨hcalls ▸ h.calls, hresult ▸ h.result⟩

/-- A step writes under allowed keys, and what is left uses these as well. -/
theorem Step.writes (hstep : u.Step services.onStore store u' store')
    (huses : u.rest.UsesOnly allowed) :
    u'.rest.UsesOnly allowed ∧ ∃ made, u'.calls = u.calls ++ made ∧
      store' = store.overwrite (writesOf made) ∧
      ∀ key ∈ (writesOf made).map (·.1), allowed key := by
  cases hstep with
  | look calls moment next =>
    exact ⟨huses, [], (List.append_nil _).symm, rfl, fun _ hkey => nomatch hkey⟩
  | call calls c next =>
    exact ⟨huses.2 _, _, rfl, services.answer_store c store, fun key hkey =>
      huses.1 key (Call.key?_of_mem hkey)⟩

end Underway

/-! ### Both of them -/

namespace SideBySide

variable {services : Services} {p : Process α} {q : Process β} {store : Store}
  {own other : String → Prop} {both after : SideBySide Store α β}

/-- Each of the two goes on as it does alone and uses keys of its own, and the store holds
what both have written. -/
structure Apart (services : Services) (own other : String → Prop) (p : Process α)
    (q : Process β) (store : Store) (both : SideBySide Store α β) : Prop where
  left : both.left.Follows services.onStore p store both.state
  right : both.right.Follows services.onStore q store both.state
  left_uses : both.left.rest.UsesOnly own
  right_uses : both.right.rest.UsesOnly other
  left_writes : ∀ key ∈ (writesOf both.left.calls).map (·.1), own key
  right_writes : ∀ key ∈ (writesOf both.right.calls).map (·.1), other key
  state_eq : both.state =
    (store.overwrite (writesOf both.left.calls)).overwrite (writesOf both.right.calls)

theorem apart_start (store : Store) (hp : p.UsesOnly own) (hq : q.UsesOnly other) :
    (start p q store).Apart services own other p q store where
  left := ⟨rfl, rfl⟩
  right := ⟨rfl, rfl⟩
  left_uses := hp
  right_uses := hq
  left_writes _ hkey := nomatch hkey
  right_writes _ hkey := nomatch hkey
  state_eq := rfl

/-- The writes of the two can be exchanged. -/
theorem Apart.state_comm (h : both.Apart services own other p q store)
    (hdisjoint : ∀ key, own key → ¬other key) :
    both.state =
      (store.overwrite (writesOf both.right.calls)).overwrite (writesOf both.left.calls) := by
  rw [h.state_eq]
  exact store.overwrite_comm fun key hkey hother =>
    hdisjoint key (h.left_writes key hkey) (h.right_writes key hother)

theorem Apart.swap (h : both.Apart services own other p q store)
    (hdisjoint : ∀ key, own key → ¬other key) :
    both.swap.Apart services other own q p store :=
  ⟨h.right, h.left, h.right_uses, h.left_uses, h.right_writes, h.left_writes,
    h.state_comm hdisjoint⟩

/-- A step of one of the two. What it writes the other one does not use. -/
theorem Apart.step_left {u u' : Underway α} {v : Underway β} {s s' : Store}
    (h : Apart services own other p q store ⟨u, v, s⟩)
    (hdisjoint : ∀ key, own key → ¬other key) (hstep : u.Step services.onStore s u' s') :
    Apart services own other p q store ⟨u', v, s'⟩ := by
  obtain ⟨huses, made, hcalls, hstate, hmade⟩ := hstep.writes h.left_uses
  have hwrites : writesOf u'.calls = writesOf u.calls ++ writesOf made := by
    rw [hcalls, writesOf_append]
  have hagree : ∀ key, other key → s key = s' key := fun key hkey => by
    rw [hstate, Store.overwrite_of_not_mem _ fun hmem => hdisjoint key (hmade key hmem) hkey]
  have hs : s = (store.overwrite (writesOf u.calls)).overwrite (writesOf v.calls) := h.state_eq
  refine ⟨h.left.step hstep, h.right.of_agree h.right_uses hagree, huses, h.right_uses, ?_,
    h.right_writes, ?_⟩
  · rw [hwrites, List.map_append, List.forall_mem_append]
    exact ⟨h.left_writes, hmade⟩
  · show s' = (store.overwrite (writesOf u'.calls)).overwrite (writesOf v.calls)
    calc s' = ((store.overwrite (writesOf u.calls)).overwrite (writesOf v.calls)).overwrite
          (writesOf made) := by rw [hstate, hs]
      _ = ((store.overwrite (writesOf u.calls)).overwrite (writesOf made)).overwrite
          (writesOf v.calls) :=
        Store.overwrite_comm _ fun key hkey hmem =>
          hdisjoint key (hmade key hmem) (h.right_writes key hkey)
      _ = (store.overwrite (writesOf u'.calls)).overwrite (writesOf v.calls) := by
        rw [hwrites, Store.overwrite_append]

/-- A step of either. -/
theorem Apart.step (h : both.Apart services own other p q store)
    (hdisjoint : ∀ key, own key → ¬other key) (hstep : both.Step services.onStore after) :
    after.Apart services own other p q store := by
  cases hstep with
  | left v hstep => exact h.step_left hdisjoint hstep
  | right u hstep =>
    have hdisjoint' : ∀ key, other key → ¬own key := fun key hother hown =>
      hdisjoint key hown hother
    exact ((h.swap hdisjoint).step_left hdisjoint' hstep).swap hdisjoint'

/-- However the two take turns, the induction being on the steps taken so far. -/
theorem Apart.steps (h : both.Apart services own other p q store)
    (hdisjoint : ∀ key, own key → ¬other key)
    (hsteps : Relation.ReflTransGen (Step services.onStore) both after) :
    after.Apart services own other p q store := by
  induction hsteps with
  | refl => exact h
  | tail _ hstep ih => exact ih.step hdisjoint hstep

end SideBySide

/-! ### Two jobs -/

/-- The calls of a run are those it makes alone from a state, as far as it has come, with the
same replies; when it has ended, they are all of these, and the report is the same but for the
time. -/
structure Job.RunsAsAlone (job : Job) (ex : Executors σ) (s : σ)
    (u : Underway (Bool × Trace)) : Prop where
  calls_prefix : u.calls <+: job.process.calls ex s
  ended : ∀ completed trace, u.rest = .done (completed, trace) →
    u.calls = job.process.calls ex s ∧ ∀ startedAt durationMs,
      job.conclude startedAt durationMs completed trace = (job.report ex s startedAt durationMs).1

theorem Job.runsAsAlone {job : Job} {ex : Executors σ} {s s' : σ} {u : Underway (Bool × Trace)}
    (h : u.Follows ex job.process s s') : job.RunsAsAlone ex s u := by
  refine ⟨⟨_, h.calls.symm⟩, fun completed trace hrest => ?_⟩
  have hcalls := h.calls
  have hresult := h.result
  rw [hrest] at hcalls hresult
  refine ⟨by rw [hcalls, Process.calls_done, List.append_nil], fun startedAt durationMs => ?_⟩
  rw [Process.run_done] at hresult
  simp only [report, hresult]

/-- Two runs of jobs that share a store go on independently of each other. -/
structure SideBySide.Isolated (first second : Job) (ex : Executors Store) (store : Store)
    (both : SideBySide Store (Bool × Trace) (Bool × Trace)) : Prop where
  left : first.RunsAsAlone ex store both.left
  right : second.RunsAsAlone ex store both.right
  /-- The store holds what both have written, in whichever order. -/
  state_eq : both.state =
    (store.overwrite (writesOf both.left.calls)).overwrite (writesOf both.right.calls)
  state_eq' : both.state =
    (store.overwrite (writesOf both.right.calls)).overwrite (writesOf both.left.calls)
  /-- As long as one of the two has not ended, there is a step. -/
  ended_or_step : (∃ a b, both.left.rest = .done a ∧ both.right.rest = .done b) ∨
    ∃ after, both.Step ex after

namespace Job

variable {first second : Job}

/-- The keys of a run. -/
def ownKey (job : Job) (key : String) : Prop :=
  ∃ k, key = StoreScope.run.scopedKey job.flowVersionId job.executionId k

/-- A run whose steps use the store in the scope of the run uses keys of its own. -/
theorem usesOnly_ownKey {job : Job}
    (h : ∀ scope ∈ job.flow.trigger.chain.storeScopes, scope = .run) :
    job.process.UsesOnly job.ownKey := by
  refine Chain.usesOnly_run (fun scope hscope key => ?_) _ _
  rw [h scope hscope]
  exact ⟨key, rfl⟩

/-- Different identifiers without a slash have no key in common. -/
theorem ownKey_disjoint (hids : first.executionId ≠ second.executionId)
    (hfirst : '/' ∉ first.executionId.toList) (hsecond : '/' ∉ second.executionId.toList)
    (key : String) (hkey : first.ownKey key) : ¬second.ownKey key := by
  rintro ⟨k', hk'⟩
  obtain ⟨k, rfl⟩ := hkey
  obtain ⟨-, hsame, -⟩ := StoreScope.scopedKey_inj (by exact hfirst) (by exact hsecond) hk'
  exact hids hsame

/-- **Concurrent runs are isolated.** Two runs of different identifiers without a slash, whose
steps use the store in the scope of the run, share a store and services that answer by the
arguments of a call. However they take turns, they come to an end, and each of them makes the
calls, is given the replies and ends with the report of its run alone. -/
theorem runs_isolated (hids : first.executionId ≠ second.executionId)
    (hfirst : '/' ∉ first.executionId.toList) (hsecond : '/' ∉ second.executionId.toList)
    (hscopes : ∀ scope ∈ first.flow.trigger.chain.storeScopes, scope = .run)
    (hscopes' : ∀ scope ∈ second.flow.trigger.chain.storeScopes, scope = .run)
    (services : Services) (store : Store) :
    let ex := services.onStore
    let start := SideBySide.start first.process second.process store
    Acc (fun after before => before.Step ex after) start ∧
      ∀ both, Relation.ReflTransGen (SideBySide.Step ex) start both →
        both.Isolated first second ex store := by
  intro ex start
  refine ⟨(SideBySide.wellFounded_step ex).apply start, fun both hsteps => ?_⟩
  have hdisjoint := ownKey_disjoint hids hfirst hsecond
  have hstart : start.Apart services first.ownKey second.ownKey first.process second.process
      store := SideBySide.apart_start store (usesOnly_ownKey hscopes) (usesOnly_ownKey hscopes')
  have hboth := hstart.steps hdisjoint hsteps
  exact ⟨runsAsAlone hboth.left, runsAsAlone hboth.right, hboth.state_eq,
    hboth.state_comm hdisjoint, both.ended_or_step ex⟩

theorem runs_isolated_ledger :
    let first := Ledger.job "run-1" .run
    let second := Ledger.job "run-2" .run
    let ex := (Services.mk (fun _ input => .ok input) (fun _ _ input => .ok input)
      (fun _ => none)).onStore
    let start := SideBySide.start first.process second.process fun _ => none
    ofJson "run-3" (Ledger.document "run-1" .run) = .ok first ∧
      ofJson "run-3" (Ledger.document "run-2" .run) = .ok second ∧
      Acc (fun after before => before.Step ex after) start ∧
      ∀ both, Relation.ReflTransGen (SideBySide.Step ex) start both →
        both.Isolated first second ex fun _ => none :=
  ⟨Ledger.accepted "run-3" "run-1" .run, Ledger.accepted "run-3" "run-2" .run,
    runs_isolated (by decide) (by decide) (by decide) (by decide) (by decide)
      (Services.mk (fun _ input => .ok input) (fun _ _ input => .ok input) fun _ => none)
      fun _ => none⟩

end Job
end Stepwise

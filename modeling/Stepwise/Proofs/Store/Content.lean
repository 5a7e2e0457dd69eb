/-
# What the store holds

What a store holds changes by writes alone, each of which sets the value under one key.
Writes under different keys can be exchanged. Executors keep a store if a read gives what
it holds, a write that succeeds sets its value, and nothing else changes it; a read or a
write may also fail and leave it as it is. Then what the store holds after some calls is
what it held before them, overwritten by the writes among them.

Key definitions: `Store`, `Store.overwrite`, `writesOf`, `Executors.KeepsStore`.
Key theorems: `Store.overwrite_comm`, `Executors.KeepsStore.content_run`,
`Executors.KeepsStore.state_of_calls`, `Script.keepsStore`.
-/
import Mathlib.Logic.Function.Basic
import Stepwise.Executor.Scripted
import Stepwise.Proofs.Run.Calls

namespace Stepwise

variable {σ α : Type}

/-- The value under each key, where there is one. -/
abbrev Store := String → Option Json

namespace Store

/-- What the store holds after writes, the first of which comes first. -/
def overwrite (store : Store) (writes : List (String × Json)) : Store :=
  writes.foldl (fun store w => Function.update store w.1 (some w.2)) store

variable (store : Store) {writes more : List (String × Json)} {key : String}

@[simp] theorem overwrite_nil : store.overwrite [] = store := rfl

@[simp] theorem overwrite_cons (key : String) (value : Json) (writes : List (String × Json)) :
    store.overwrite ((key, value) :: writes) =
      Store.overwrite (Function.update store key (some value)) writes := rfl

theorem overwrite_append (writes more : List (String × Json)) :
    store.overwrite (writes ++ more) = (store.overwrite writes).overwrite more :=
  List.foldl_append

/-- A key that is not written to keeps its value. -/
theorem overwrite_of_not_mem (h : key ∉ writes.map (·.1)) :
    store.overwrite writes key = store key := by
  induction writes generalizing store with
  | nil => rfl
  | cons w writes ih =>
    rw [List.map_cons, List.mem_cons, not_or] at h
    rw [overwrite_cons, ih _ h.2, Function.update_of_ne h.1]

/-- The same writes leave the same value where the same value was. -/
theorem overwrite_congr {store store' : Store} (writes : List (String × Json))
    (h : store key = store' key) : store.overwrite writes key = store'.overwrite writes key := by
  induction writes generalizing store store' with
  | nil => exact h
  | cons w writes ih =>
    rw [overwrite_cons, overwrite_cons]
    refine ih ?_
    by_cases hkey : key = w.1
    · rw [hkey, Function.update_self, Function.update_self]
    · rw [Function.update_of_ne hkey, Function.update_of_ne hkey, h]

/-- One write and others under other keys can be exchanged. -/
theorem overwrite_update (h : key ∉ writes.map (·.1)) (value : Json) :
    Store.overwrite (Function.update store key (some value)) writes =
      Function.update (store.overwrite writes) key (some value) := by
  induction writes generalizing store with
  | nil => rfl
  | cons w writes ih =>
    rw [List.map_cons, List.mem_cons, not_or] at h
    rw [overwrite_cons, overwrite_cons, Function.update_comm h.1, ih _ h.2]

/-- Writes under different keys can be exchanged. -/
theorem overwrite_comm (h : ∀ key ∈ writes.map (·.1), key ∉ more.map (·.1)) :
    (store.overwrite writes).overwrite more = (store.overwrite more).overwrite writes := by
  induction writes generalizing store with
  | nil => rfl
  | cons w writes ih =>
    obtain ⟨hfirst, hrest⟩ := List.forall_mem_cons.mp h
    rw [overwrite_cons, overwrite_cons, ih _ hrest, overwrite_update _ hfirst]

end Store

/-- What a call with its reply has written: a write that failed has written nothing. -/
def write? : Call × Reply → Option (String × Json)
  | (.put key value, .ok _) => some (key, value)
  | _ => none

/-- What calls have written, in order. -/
def writesOf (calls : List (Call × Reply)) : List (String × Json) := calls.filterMap write?

theorem writesOf_nil : writesOf [] = [] := rfl

theorem writesOf_cons (call : Call × Reply) (calls : List (Call × Reply)) :
    writesOf (call :: calls) = (write? call).toList ++ writesOf calls := by
  rw [writesOf, List.filterMap_cons]
  cases write? call <;> rfl

theorem writesOf_append (calls more : List (Call × Reply)) :
    writesOf (calls ++ more) = writesOf calls ++ writesOf more := List.filterMap_append

/-- The executors keep a store, which holds `content` in each of their states. The reads and
writes of some keys fail without touching it. -/
structure Executors.KeepsStore (ex : Executors σ) (content : σ → Store)
    (fails : String → Prop) : Prop where
  /-- A read gives what is held. -/
  get : ∀ key s, ¬fails key → (ex.get key s).1 = .ok (content s key)
  /-- A write answers with what it wrote. -/
  put : ∀ key value s, ¬fails key → (ex.put key value s).1 = .ok value
  get_fails : ∀ key s, fails key → ∃ e, (ex.get key s).1 = .error e
  put_fails : ∀ key value s, fails key → ∃ e, (ex.put key value s).1 = .error e
  content_put : ∀ key value s, ¬fails key →
    content (ex.put key value s).2 = Function.update (content s) key (some value)
  content_put_fails : ∀ key value s, fails key → content (ex.put key value s).2 = content s
  content_get : ∀ key s, content (ex.get key s).2 = content s
  content_code : ∀ artifact input s, content (ex.code artifact input s).2 = content s
  content_integration : ∀ name action input s,
    content (ex.integration name action input s).2 = content s

namespace Executors.KeepsStore

variable {ex : Executors σ} {content : σ → Store} {fails : String → Prop}

/-- One call changes what is held by what it has written. -/
theorem content_answer (h : ex.KeepsStore content fails) (c : Call) (s : σ) :
    content (ex.answer c s).2 =
      (content s).overwrite (write? (c, (ex.answer c s).1)).toList := by
  cases c with
  | code artifact input => exact h.content_code artifact input s
  | integration name action input => exact h.content_integration name action input s
  | get key => exact h.content_get key s
  | put key value =>
    by_cases hkey : fails key
    · obtain ⟨e, he⟩ := h.put_fails key value s hkey
      simp only [answer, he, Except.map, write?]
      exact h.content_put_fails key value s hkey
    · simp only [answer, h.put key value s hkey, Except.map, write?]
      exact h.content_put key value s hkey

/-- A read that succeeds gives what is held. -/
theorem eq_of_answer_get (h : ex.KeepsStore content fails) {key : String} {s : σ}
    {found : Option Json} (hget : (ex.answer (.get key) s).1 = .ok found) :
    found = content s key := by
  have hreply : (ex.get key s).1 = .ok found := hget
  by_cases hkey : fails key
  · obtain ⟨e, he⟩ := h.get_fails key s hkey
    rw [he] at hreply
    contradiction
  · rw [h.get key s hkey, Except.ok.injEq] at hreply
    exact hreply.symm

/-- A write that succeeds answers with its value. -/
theorem eq_of_answer_put (h : ex.KeepsStore content fails) {key : String} {value : Json} {s : σ}
    {stored : Option Json} (hput : (ex.answer (.put key value) s).1 = .ok stored) :
    stored = some value := by
  by_cases hkey : fails key
  · obtain ⟨e, he⟩ := h.put_fails key value s hkey
    simp [answer, he, Except.map] at hput
  · simp only [answer, h.put key value s hkey, Except.map, Except.ok.injEq] at hput
    exact hput.symm

/-- What the store holds in the end are the writes of the run over what it held before. -/
theorem content_run (h : ex.KeepsStore content fails) : ∀ (p : Process α) (s : σ),
    content (p.run ex s).2 = (content s).overwrite (writesOf (p.calls ex s))
  | .done _, _ => rfl
  | .look _ next, s => content_run h next s
  | .call c next, s => by
    rw [Process.run_call, Process.calls_call, content_run h, h.content_answer, writesOf_cons,
      Store.overwrite_append]

/-- Each call is answered in a state in which the store holds the writes before it over what
it held at first. -/
theorem state_of_calls (h : ex.KeepsStore content fails) {c : Call} {r : Reply}
    {after : List (Call × Reply)} : ∀ {p : Process α} {s : σ} {before : List (Call × Reply)},
    p.calls ex s = before ++ (c, r) :: after →
      ∃ s', (ex.answer c s').1 = r ∧ content s' = (content s).overwrite (writesOf before)
  | .done _, _, before, hcalls => by simp at hcalls
  | .look _ next, s, _, hcalls => state_of_calls (p := next) h hcalls
  | .call c' next, s, [], hcalls => by
    rw [Process.calls_call, List.nil_append, List.cons.injEq, Prod.mk.injEq] at hcalls
    obtain ⟨⟨rfl, hr⟩, -⟩ := hcalls
    exact ⟨s, hr, rfl⟩
  | .call c' next, s, first :: before, hcalls => by
    rw [Process.calls_call, List.cons_append, List.cons.injEq] at hcalls
    obtain ⟨rfl, hrest⟩ := hcalls
    obtain ⟨s', hr, hcontent⟩ := state_of_calls h hrest
    exact ⟨s', hr, by rw [hcontent, h.content_answer, writesOf_cons, Store.overwrite_append]⟩

end Executors.KeepsStore

/-! ### The store of a rehearsal -/

theorem Json.get?_insert (key : String) (value : Json) : ∀ fields : Json.Fields,
    Named.get? (Json.insert key value fields) =
      Function.update (Named.get? fields) key (some value)
  | [] => by
    funext other
    by_cases h : key = other
    · subst h
      simp [Json.insert, Named.get?]
    · simp [Json.insert, Named.get?, h, Function.update_of_ne (Ne.symm h)]
  | (name, found) :: rest => by
    have ih := get?_insert key value rest
    funext other
    have hother := congrFun ih other
    by_cases h : key = other
    · subst h
      rw [Function.update_self] at hother ⊢
      unfold Json.insert
      split
      · simp [Named.get?]
      · rename_i hne
        split
        · simp [Named.get?]
        · simp [Named.get?, Ne.symm hne, hother]
    · rw [Function.update_of_ne (Ne.symm h)] at hother ⊢
      unfold Json.insert
      split
      · rename_i heq
        subst heq
        simp [Named.get?, h]
      · split
        · simp [Named.get?, h]
        · simp [Named.get?, hother]

/-- Scripted executors keep a store. -/
theorem Script.keepsStore (script : Script) :
    script.executors.KeepsStore (fun s => Named.get? s.store)
      fun key => (Named.get? script.storeErrors key).isSome = true where
  get key s hkey := by
    rw [Option.not_isSome_iff_eq_none] at hkey
    simp only [executors, answerGet, hkey, State.note]
  put key value s hkey := by
    rw [Option.not_isSome_iff_eq_none] at hkey
    simp only [executors, answerPut, hkey]
  get_fails key s hkey := by
    obtain ⟨e, he⟩ := Option.isSome_iff_exists.mp hkey
    exact ⟨e, by simp only [executors, answerGet, he]⟩
  put_fails key value s hkey := by
    obtain ⟨e, he⟩ := Option.isSome_iff_exists.mp hkey
    exact ⟨e, by simp only [executors, answerPut, he]⟩
  content_put key value s hkey := by
    rw [Option.not_isSome_iff_eq_none] at hkey
    simp only [executors, answerPut, hkey, State.note]
    exact Json.get?_insert key value s.store
  content_put_fails key value s hkey := by
    obtain ⟨e, he⟩ := Option.isSome_iff_exists.mp hkey
    simp only [executors, answerPut, he, State.note]
  content_get key s := by
    simp only [executors, answerGet, State.note]
    cases Named.get? script.storeErrors key <;> rfl
  content_code artifact input s := by
    simp only [executors, answerCode, State.note]
    cases Named.get? script.code artifact <;> rfl
  content_integration name action input s := by
    simp only [executors, answerIntegration, State.note]
    cases Registry.find script.integrations name action <;> rfl

end Stepwise

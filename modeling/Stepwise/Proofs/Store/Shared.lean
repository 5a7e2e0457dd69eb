/-
# A shared store

Services that answer by the arguments of a call alone, together with one store: nothing that
a call does is seen by another call, but for the values under the keys. So a run depends on
the keys that it uses alone. With two stores that agree on these it makes the same calls, is
given the same replies and ends in the same way, whatever the stores hold elsewhere.

Key definitions: `Services`, `Services.onStore`.
Key theorems: `Call.key?_of_mem`, `Services.keepsStore`, `Services.run_congr`.
-/
import Stepwise.Proofs.Store.Access
import Stepwise.Proofs.Store.Content

namespace Stepwise

variable {α : Type}

/-- What a call writes, it writes under its key. -/
theorem Call.key?_of_mem {c : Call} {r : Reply} {key : String}
    (h : key ∈ (writesOf [(c, r)]).map (·.1)) : c.key? = some key := by
  cases c with
  | put written value =>
    cases r with
    | error e => simp [writesOf, write?] at h
    | ok v =>
      have hkey : key ∈ [written] := h
      rw [List.mem_singleton.mp hkey, key?]
  | _ => simp [writesOf, write?] at h

/-- What answers calls by their arguments alone. -/
structure Services where
  code : String → Json → Except CallError Json
  integration : String → String → Json → Except CallError Json
  /-- Why the reads and writes of a key fail, if they do. -/
  outage : String → Option CallError

namespace Services

/-- The services with a store. A read gives what is held under the key, and a write sets it. -/
def onStore (services : Services) : Executors Store where
  code artifact input store := (services.code artifact input, store)
  integration name action input store := (services.integration name action input, store)
  get key store :=
    match services.outage key with
    | some e => (.error e, store)
    | none => (.ok (store key), store)
  put key value store :=
    match services.outage key with
    | some e => (.error e, store)
    | none => (.ok value, Function.update store key (some value))

variable (services : Services) {allowed : String → Prop}

theorem keepsStore :
    services.onStore.KeepsStore id fun key => (services.outage key).isSome = true where
  get key store hkey := by
    rw [Option.not_isSome_iff_eq_none] at hkey
    simp only [onStore, hkey, id]
  put key value store hkey := by
    rw [Option.not_isSome_iff_eq_none] at hkey
    simp only [onStore, hkey]
  get_fails key store hkey := by
    obtain ⟨e, he⟩ := Option.isSome_iff_exists.mp hkey
    exact ⟨e, by simp only [onStore, he]⟩
  put_fails key value store hkey := by
    obtain ⟨e, he⟩ := Option.isSome_iff_exists.mp hkey
    exact ⟨e, by simp only [onStore, he]⟩
  content_put key value store hkey := by
    rw [Option.not_isSome_iff_eq_none] at hkey
    simp only [onStore, hkey, id]
  content_put_fails key value store hkey := by
    obtain ⟨e, he⟩ := Option.isSome_iff_exists.mp hkey
    simp only [onStore, he]
  content_get key store := by
    simp only [onStore]
    cases services.outage key <;> rfl
  content_code artifact input store := rfl
  content_integration name action input store := rfl

/-- A call leaves in the store what it has written. -/
theorem answer_store (c : Call) (store : Store) :
    (services.onStore.answer c store).2 =
      store.overwrite (writesOf [(c, (services.onStore.answer c store).1)]) := by
  rw [writesOf_cons, writesOf_nil, List.append_nil]
  exact services.keepsStore.content_answer c store

/-- The reply to a call depends on what is held under its key alone. -/
theorem answer_congr {c : Call} {store store' : Store}
    (h : ∀ key, c.key? = some key → store key = store' key) :
    (services.onStore.answer c store).1 = (services.onStore.answer c store').1 := by
  cases c with
  | code artifact input => rfl
  | integration name action input => rfl
  | get key =>
    simp only [Executors.answer, onStore, h key rfl]
    cases services.outage key <;> rfl
  | put key value =>
    simp only [Executors.answer, onStore]
    cases services.outage key <;> rfl

/-- A run depends on the keys that it uses alone: after a call, what was written is held in
both stores. -/
theorem run_congr {p : Process α} {store store' : Store} (huses : p.UsesOnly allowed)
    (hagree : ∀ key, allowed key → store key = store' key) :
    p.calls services.onStore store = p.calls services.onStore store' ∧
      (p.run services.onStore store).1 = (p.run services.onStore store').1 := by
  refine Process.run_congr (R := fun first second => ∀ key, allowed key → first key = second key)
    (fun c first second hkeys hsame => ?_) huses hagree
  have hreply := services.answer_congr fun key hkey => hsame key (hkeys key hkey)
  refine ⟨hreply, fun key hkey => ?_⟩
  rw [answer_store, answer_store, hreply]
  exact Store.overwrite_congr _ (hsame key hkey)

end Services
end Stepwise

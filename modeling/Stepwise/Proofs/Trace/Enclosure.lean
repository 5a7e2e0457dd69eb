/-
# Scopes within scopes

A step stands in one scope, and around it stand the scopes of the loops that are under
way, each with the record of its loop so far. The scope and its surroundings can be
taken apart and put together again: filling the surroundings with the scope gives the
trace, and their frames give the path that leads to it. In a trace put together in this
way, reading and writing at the path is reading and writing of the scope alone.

Key definitions: `Enclosure`, `Surroundings.path`, `Surroundings.fill`,
`Surroundings.bindings`, `Trace.surroundings`.
Key theorems: `Surroundings.scope?_fill`, `Surroundings.modify_fill`,
`Surroundings.get?_fill_append`, `Surroundings.get?_fill`, `Trace.fill_surroundings`.
-/
import Stepwise.Proofs.Trace.Scope

namespace Stepwise

/-- A scope in which one iteration of a loop is under way. -/
structure Enclosure where
  scope : Scope
  /-- The loop and the index of the iteration. -/
  frame : Frame
  /-- The loop has a record in the scope, and the record has the iteration. -/
  holds : (scope.inner? frame).isSome

/-- The scope with the iteration that is under way as it is now. -/
def Enclosure.fill (e : Enclosure) (inner : Scope) : Scope := e.scope.setInner e.frame inner

theorem Enclosure.inner?_fill (e : Enclosure) (inner : Scope) :
    (e.fill inner).inner? e.frame = some inner := Scope.inner?_setInner e.holds inner

/-- The scopes around a step, the innermost first. -/
abbrev Surroundings := List Enclosure

namespace Surroundings

/-- The path from the trace to the scope inside. -/
def path : Surroundings → Path
  | [] => []
  | e :: around => path around ++ [e.frame]

/-- The trace that has the scope inside. -/
def fill : Surroundings → Scope → Trace
  | [], scope => scope
  | e :: around, scope => fill around (e.fill scope)

/-- The scope and those around it, the innermost first. -/
def scopes : Surroundings → Scope → List Scope
  | [], scope => [scope]
  | e :: around, scope => scope :: scopes around (e.fill scope)

/-- What a step in the scope can refer to by name: of several results under one name,
the innermost comes first. -/
def bindings (around : Surroundings) (scope : Scope) : Scope := (scopes around scope).flatten

/-- The path leads to the scope, and what goes on from there goes on in the scope. -/
theorem scope?_fill_append : ∀ (around : Surroundings) (scope : Scope) (rest : Path),
    Trace.scope? (fill around scope) (path around ++ rest) = Trace.scope? scope rest
  | [], _, _ => rfl
  | e :: around, scope, rest => by
    rw [fill, path, List.append_assoc, scope?_fill_append around]
    simp [Trace.scope?, e.inner?_fill]

theorem scope?_fill (around : Surroundings) (scope : Scope) :
    Trace.scope? (fill around scope) (path around) = some scope := by
  simpa [Trace.scope?] using scope?_fill_append around scope []

/-- Changing the trace below the path is changing the scope. -/
theorem modify_fill_append (f : Scope → Scope) :
    ∀ (around : Surroundings) (scope : Scope) (rest : Path),
      Trace.modify (fill around scope) (path around ++ rest) f =
        (Trace.modify scope rest f).map (fill around)
  | [], scope, rest => by
    have : fill [] = id := rfl
    simp [this, path]
  | e :: around, scope, rest => by
    have hset : (e.fill scope).setInner e.frame = e.fill :=
      funext fun inner => Scope.setInner_setInner e.scope e.frame scope inner
    have hfill : fill (e :: around) = fill around ∘ e.fill := rfl
    rw [fill, path, List.append_assoc, modify_fill_append f around, List.singleton_append,
      Trace.modify, e.inner?_fill, Option.bind_some, hset, Option.map_map, hfill]

theorem modify_fill (around : Surroundings) (scope : Scope) (f : Scope → Scope) :
    Trace.modify (fill around scope) (path around) f = some (fill around (f scope)) := by
  simpa [Trace.modify] using modify_fill_append f around scope []

theorem insert_fill (around : Surroundings) (scope : Scope) (name : String) (r : StepResult) :
    Trace.insert (fill around scope) (path around) name r =
      some (fill around (Named.put name r scope)) := modify_fill around scope _

theorem getExact?_fill (around : Surroundings) (scope : Scope) (name : String) :
    Trace.getExact? (fill around scope) (path around) name = Named.get? scope name := by
  rw [Trace.getExact?, scope?_fill, Option.bind_some]

/-- The scopes seen along the path are the scope and those around it. -/
theorem visible_fill : ∀ (around : Surroundings) (scope : Scope) (outer : List Scope)
    (rest : Path),
    Trace.visible (fill around scope) outer (path around ++ rest) =
      Trace.visible scope ((scopes around scope).tail ++ outer) rest
  | [], _, _, _ => rfl
  | e :: around, scope, outer, rest => by
    have hcons : scopes around (e.fill scope) =
        e.fill scope :: (scopes around (e.fill scope)).tail := by cases around <;> rfl
    rw [fill, path, List.append_assoc, visible_fill around, List.singleton_append, Trace.visible,
      e.inner?_fill, scopes, List.tail_cons, hcons]
    rfl

/-- From a path that goes on in the scope, a name is looked up in the scope first and then
in those around it. -/
theorem get?_fill_append (around : Surroundings) (scope : Scope) (rest : Path) (name : String) :
    Trace.get? (fill around scope) (path around ++ rest) name =
      (Trace.get? scope rest name).or (Named.get? (scopes around scope).tail.flatten name) := by
  rw [Trace.get?, visible_fill, List.append_nil, Trace.visible_eq_append, List.findSome?_append,
    Named.get?_flatten]
  rfl

/-- A name is found in the trace from the path as it is found among the bindings. -/
theorem get?_fill (around : Surroundings) (scope : Scope) (name : String) :
    Trace.get? (fill around scope) (path around) name =
      Named.get? (bindings around scope) name := by
  have hcons : scopes around scope = scope :: (scopes around scope).tail := by
    cases around <;> rfl
  have hfill := get?_fill_append around scope [] name
  rw [List.append_nil, Trace.get?_nil] at hfill
  rw [hfill, bindings, hcons, List.flatten_cons, Named.get?_append]
  rfl

end Surroundings

namespace Trace

/-- What surrounds the scope that a path leads to, inside what surrounds the trace. -/
def surroundingsFrom (t : Scope) (around : Surroundings) : Path → Surroundings
  | [] => around
  | frame :: rest =>
    if h : (t.inner? frame).isSome then
      surroundingsFrom ((t.inner? frame).get h) (⟨t, frame, h⟩ :: around) rest
    else around

/-- What surrounds the scope that a path leads to. -/
def surroundings (t : Trace) (path : Path) : Surroundings := surroundingsFrom t [] path

theorem surroundingsFrom_cons {t inner : Scope} {frame : Frame}
    (h : t.inner? frame = some inner) (around : Surroundings) (rest : Path) :
    surroundingsFrom t around (frame :: rest) =
      surroundingsFrom inner (⟨t, frame, by simp [h]⟩ :: around) rest := by
  simp [surroundingsFrom, h]

/-- Taking a trace apart along a path and putting it together again. -/
theorem fill_surroundingsFrom : ∀ {path : Path} {t scope : Scope} (around : Surroundings),
    scope? t path = some scope →
      Surroundings.path (surroundingsFrom t around path) = around.path ++ path ∧
        Surroundings.fill (surroundingsFrom t around path) scope = around.fill t
  | [], t, scope, around, h => by
    simp only [scope?, Option.some.injEq] at h
    simp [surroundingsFrom, h]
  | frame :: rest, t, scope, around, h => by
    obtain ⟨inner, hi, hs⟩ := Option.bind_eq_some_iff.mp h
    have ih := fill_surroundingsFrom (⟨t, frame, by simp [hi]⟩ :: around) hs
    rw [surroundingsFrom_cons hi]
    constructor
    · simpa [Surroundings.path] using ih.1
    · simpa [Surroundings.fill, Enclosure.fill, Scope.setInner_self hi] using ih.2

theorem path_surroundings {t : Trace} {path : Path} {scope : Scope}
    (h : scope? t path = some scope) : Surroundings.path (surroundings t path) = path :=
  (fill_surroundingsFrom [] h).1

theorem fill_surroundings {t : Trace} {path : Path} {scope : Scope}
    (h : scope? t path = some scope) : Surroundings.fill (surroundings t path) scope = t :=
  (fill_surroundingsFrom [] h).2

end Trace
end Stepwise

/-
# Views that agree

What a value resolves to depends on its view only through the references in its strings:
two views in which each of these leads to the same value resolve the value alike. What the
references lead to is put in as it is. No reference that it may hold is followed, so it
does not matter which ones it holds. A task whose settings resolve alike does the same.

Key definitions: `Json.references`.
Key theorems: `View.resolve_eq_of_references`, `View.resolve_congr`, `Task.perform_congr`.
-/
import Mathlib.Data.List.Basic
import Stepwise.Flow.Check
import Stepwise.Proofs.Template.Grammar
import Stepwise.Run.Step

namespace Stepwise

/-- The references in the strings of a value, in order. -/
def Json.references (v : Json) : List String :=
  v.strings.flatMap fun s => (Template.ofText s).references

/-- The expression of a template that is a single placeholder is that of one of its parts. -/
theorem Template.mem_parts_of_whole? {t : Template} {expression : List Char}
    (h : t.whole? = some expression) : ([], expression) ∈ t.parts := by
  obtain ⟨rfl, -⟩ := whole?_eq_some_iff.mp h
  exact List.mem_singleton_self _

namespace View

variable {v w : View}

/-- A blank expression refers to nothing. -/
theorem lookup?_empty (v : View) : v.lookup? "" = none := rfl

/-- A blank placeholder is null in every view, and any other is one of the references. -/
theorem placeholder_eq_of_references {t : Template}
    (h : ∀ r ∈ t.references, v.lookup? r = w.lookup? r) {literal expression : List Char}
    (hpart : (literal, expression) ∈ t.parts) :
    v.placeholder expression = w.placeholder expression := by
  unfold placeholder
  by_cases hblank : Template.lookedUp expression = ""
  · rw [hblank, lookup?_empty, lookup?_empty]
  · have hmem : Template.lookedUp expression ∈ t.references := by
      rw [Template.references, List.mem_filter]
      exact ⟨List.mem_map.mpr ⟨_, hpart, rfl⟩, decide_eq_true hblank⟩
    rw [h _ hmem]

theorem fill_eq_of_references {t : Template}
    (h : ∀ r ∈ t.references, v.lookup? r = w.lookup? r) : v.fill t = w.fill t := by
  unfold fill
  cases hwhole : t.whole? with
  | some expression =>
    exact placeholder_eq_of_references h (Template.mem_parts_of_whole? hwhole)
  | none =>
    have hparts : t.parts.flatMap (fun p => p.1 ++ embedded (v.placeholder p.2)) =
        t.parts.flatMap (fun p => p.1 ++ embedded (w.placeholder p.2)) :=
      List.flatMap_congr fun p hp => by rw [placeholder_eq_of_references h hp]
    simp only [hparts]

mutual

/-- Views in which the references of a value lead to the same values resolve it alike. -/
theorem resolve_eq_of_references : ∀ x : Json,
    (∀ r ∈ x.references, v.lookup? r = w.lookup? r) → v.resolve x = w.resolve x
  | .null, _ => rfl
  | .bool _, _ => rfl
  | .num _, _ => rfl
  | .str s, h => fill_eq_of_references fun r hr => h r (by simpa [Json.references, Json.strings])
  | .arr items, h => congrArg Json.arr (resolveList_eq_of_references items h)
  | .obj fields, h => congrArg Json.obj (resolveFields_eq_of_references fields h)

theorem resolveList_eq_of_references : ∀ items : List Json,
    (∀ r ∈ (Json.arr items).references, v.lookup? r = w.lookup? r) →
      v.resolveList items = w.resolveList items
  | [], _ => rfl
  | x :: xs, h => by
    have hcons : (Json.arr (x :: xs)).references = x.references ++ (Json.arr xs).references :=
      List.flatMap_append
    rw [hcons] at h
    obtain ⟨hx, hxs⟩ := List.forall_mem_append.mp h
    rw [resolveList, resolveList, resolve_eq_of_references x hx,
      resolveList_eq_of_references xs hxs]

theorem resolveFields_eq_of_references : ∀ fields : Json.Fields,
    (∀ r ∈ (Json.obj fields).references, v.lookup? r = w.lookup? r) →
      v.resolveFields fields = w.resolveFields fields
  | [], _ => rfl
  | (k, x) :: rest, h => by
    have hcons : (Json.obj ((k, x) :: rest)).references =
        x.references ++ (Json.obj rest).references := List.flatMap_append
    rw [hcons] at h
    obtain ⟨hx, hrest⟩ := List.forall_mem_append.mp h
    rw [resolveFields, resolveFields, resolve_eq_of_references x hx,
      resolveFields_eq_of_references rest hrest]

end

/-- Views that agree on all references resolve every value alike. -/
theorem resolve_congr (h : v.find? = w.find?) (x : Json) : v.resolve x = w.resolve x :=
  resolve_eq_of_references x fun r _ => by rw [lookup?, lookup?, h]

end View

/-- A task does what its resolved settings say, and of the run it needs no more than the
identifiers. -/
theorem Task.perform_congr {scene other : Scene} {v w : View}
    (hexecution : scene.executionId = other.executionId)
    (hversion : scene.flowVersionId = other.flowVersionId) {task : Task}
    (h : ∀ x ∈ task.templates, v.resolve x = w.resolve x) :
    task.perform scene v = task.perform other w := by
  cases task with
  | code s =>
    have hinput : v.resolve s.input = w.resolve s.input := h _ (List.mem_singleton_self _)
    simp only [perform, performCode, hinput]
  | integration s =>
    have hinput : v.resolve s.input = w.resolve s.input := h _ (List.mem_singleton_self _)
    simp only [perform, performIntegration, hinput]
  | storage s =>
    have hkey : v.resolve s.key = w.resolve s.key := h _ List.mem_cons_self
    have hvalue : s.value.map v.resolve = s.value.map w.resolve :=
      Option.map_congr fun x hx => h x (List.mem_cons_of_mem _ (Option.mem_toList.mpr hx))
    simp only [perform, performStorage, storageAct, hkey, hvalue, hexecution, hversion]
  | response s =>
    have houtput : v.resolve s.output = w.resolve s.output := h _ (List.mem_singleton_self _)
    simp only [perform, performResponse, houtput]

end Stepwise

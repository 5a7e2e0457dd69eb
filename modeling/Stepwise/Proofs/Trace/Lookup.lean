/-
# Looking outward

A name is looked up from a path by walking along it once, as far as it leads, and by searching
the scopes that were passed from the last one back. The scope of a path, on the other hand, is
reached from the top each time. Both find the same: the first result under the name when the
path is shortened frame by frame, whether it leads all the way, part of it or nowhere.

Key definitions: `Path.outward`.

Key theorems: `Trace.get?_cons_of_none`, `Trace.get_outward`.
-/
import Stepwise.Proofs.Trace.Scope
import Mathlib.Data.List.Infix

namespace Stepwise

/-- The path itself, the path without its last frame, and so on out to the root. -/
def Path.outward (path : Path) : List Path := path.inits.reverse

theorem Path.outward_cons (frame : Frame) (rest : Path) :
    outward (frame :: rest) = (outward rest).map (frame :: ·) ++ [[]] := by
  simp only [outward, List.inits_cons, List.reverse_cons, List.map_reverse]

namespace Trace

/-- From a path whose first frame leads nowhere, only the scope itself is seen. -/
theorem get?_cons_of_none {t : Trace} {frame : Frame} (h : t.inner? frame = none) (rest : Path)
    (name : String) : get? t (frame :: rest) name = Named.get? t name := by
  rw [get?, visible, h]
  exact List.findSome?_singleton

theorem getExact?_nil (t : Trace) (name : String) : getExact? t [] name = Named.get? t name := rfl

theorem getExact?_cons (t : Trace) (frame : Frame) (rest : Path) (name : String) :
    getExact? t (frame :: rest) name = (t.inner? frame).bind (getExact? · rest name) := by
  simp only [getExact?, scope?, Option.bind_assoc]

/-- **A name is looked up innermost first.** For every trace, every path, wherever it leads,
and every name, what is found is the first of the results that stand under the name exactly
at the path, at the path without its last frame, and so on out to the root; nothing is found
if none of these places has one. The induction is along the path. -/
theorem get_outward : ∀ (t : Trace) (path : Path) (name : String),
    get? t path name = path.outward.findSome? fun place => getExact? t place name
  | t, [], name => by
    rw [get?_nil]
    exact List.findSome?_singleton.symm
  | t, frame :: rest, name => by
    have hmap : ((Path.outward rest).map (frame :: ·)).findSome? (fun p => getExact? t p name) =
        (Path.outward rest).findSome? fun p => (t.inner? frame).bind (getExact? · p name) := by
      rw [List.findSome?_map]
      simp only [Function.comp_def, getExact?_cons]
    rw [Path.outward_cons, List.findSome?_append, List.findSome?_singleton, hmap, getExact?_nil]
    cases hinner : t.inner? frame with
    | none =>
      have hnowhere : (Path.outward rest).findSome?
          (fun p => (none : Option Scope).bind (getExact? · p name)) = none :=
        List.findSome?_eq_none_iff.mpr fun _ _ => rfl
      rw [get?_cons_of_none hinner, hnowhere, Option.none_or]
    | some inner =>
      rw [get?_cons hinner, get_outward inner rest name]
      rfl

example (r : StepResult) : get? [("a", r)] [("b", 3), ("c", 0)] "a" = some r := rfl

end Trace
end Stepwise

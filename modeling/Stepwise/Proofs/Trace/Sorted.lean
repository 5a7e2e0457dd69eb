/-
# Sorted values in a trace

A value is sorted if it is its own canonical form, so that in it and in all its parts the keys
of every object are in order. Only the outputs of steps and the items of loops can be referred
to, and a trace in which these are sorted has only sorted parts to refer to. It stays so
when a result is recorded whose output is sorted, at any path.

Key definitions: `Json.Sorted`, `StepResult.Sorted`, `Scope.Sorted`.

Key theorems: `Json.Sorted.at?`, `StepResult.Sorted.part?`, `Trace.sorted_get?`,
`Trace.sorted_insert`, `Trace.sorted_updateLoop`.
-/
import Stepwise.Proofs.Json.Canonical
import Stepwise.Run.Chain

namespace Stepwise

/-! ### Values -/

namespace Json

/-- The value is its own canonical form. -/
def Sorted (v : Json) : Prop := v.canonical = v

theorem sorted_canonical (v : Json) : v.canonical.Sorted := canonical_canonical v

theorem sorted_null : Json.null.Sorted := by simp only [Sorted, canonical]

theorem sorted_str (s : String) : (Json.str s).Sorted := by simp only [Sorted, canonical]

theorem sorted_nat (n : Nat) : (Json.nat n).Sorted := by
  simp only [Sorted, nat, canonical]

theorem sorted_arr_iff {items : List Json} : (arr items).Sorted ↔ ∀ v ∈ items, v.Sorted := by
  have hlist : canonicalList items = items ↔ ∀ v ∈ items, v.Sorted := by
    induction items with
    | nil => simp [canonicalList]
    | cons v vs ih => simp [canonicalList, ih, Sorted]
  rw [Sorted, canonical, arr.injEq, hlist]

theorem sorted_obj_iff {fields : Fields} : (obj fields).Sorted ↔
    fields.Pairwise (·.1 < ·.1) ∧ ∀ p ∈ fields, p.2.Sorted := by
  rw [Sorted, canonical, obj.injEq]
  constructor
  · intro h
    refine ⟨h ▸ pairwise_canonicalFields fields, fun p hp => ?_⟩
    rw [← h] at hp
    obtain ⟨q, -, rfl⟩ := mem_canonicalFields hp
    exact sorted_canonical q.2
  · rintro ⟨hkeys, hvalues⟩
    exact canonicalFields_eq_self hkeys hvalues

namespace Sorted

theorem child? {v w : Json} {segment : String} (h : v.Sorted)
    (hchild : v.child? segment = some w) : w.Sorted := by
  cases v with
  | obj fields => exact (sorted_obj_iff.mp h).2 _ (Named.mem_of_get? hchild)
  | arr items =>
    obtain ⟨index, -, hitem⟩ := Option.bind_eq_some_iff.mp hchild
    exact sorted_arr_iff.mp h w (List.mem_of_getElem? hitem)
  | null | bool _ | num _ | str _ => contradiction

/-- Every part of a sorted value is sorted. -/
theorem at? : ∀ {segments : List String} {v w : Json}, v.Sorted → v.at? segments = some w →
    w.Sorted
  | [], _, _, h, hat => Option.some.inj hat ▸ h
  | _ :: _, _, _, h, hat => by
    obtain ⟨inside, hchild, hrest⟩ := Option.bind_eq_some_iff.mp hat
    exact at? (h.child? hchild) hrest

end Sorted
end Json

/-! ### Records -/

/-- The output of the record is sorted; in a loop, the item and all outputs in the
iterations are. -/
inductive StepResult.Sorted : StepResult → Prop where
  | value {input v : Json} {status : Status} {message : Option String} {durationMs : Nat}
    (h : v.Sorted) : Sorted ⟨input, .value v, status, message, durationMs⟩
  | loop {input : Json} {summary : LoopSummary StepResult} {status : Status}
      {message : Option String} {durationMs : Nat} (hitem : ∀ v ∈ summary.currentItem, v.Sorted)
      (hscopes : ∀ scope ∈ summary.iterations, ∀ e ∈ scope, Sorted e.2) :
    Sorted ⟨input, .loop summary, status, message, durationMs⟩

/-- The outputs of all steps are sorted. -/
def Scope.Sorted (scope : Scope) : Prop := ∀ e ∈ scope, e.2.Sorted

/-- The item and the outputs in the iterations are sorted. -/
structure LoopSummary.Sorted (summary : LoopSummary StepResult) : Prop where
  item : ∀ v ∈ summary.currentItem, v.Sorted
  scopes : ∀ scope ∈ summary.iterations, Scope.Sorted scope

theorem LoopSummary.sorted_initial : LoopSummary.Sorted .initial where
  item _ h := nomatch h
  scopes _ h := nomatch h

theorem LoopSummary.Sorted.enter {summary : LoopSummary StepResult} (h : summary.Sorted)
    (index : Nat) {item : Json} (hitem : item.Sorted) : (summary.enter index item).Sorted where
  item v hv := Option.some.inj hv ▸ hitem
  scopes scope hscope := by
    rcases List.mem_append.mp hscope with hold | hnew
    · exact h.scopes scope hold
    · rw [List.mem_singleton.mp hnew]
      exact fun e he => nomatch he

/-- Every part of a loop's output is sorted, as its history is sorted before it is read. -/
theorem LoopSummary.Sorted.part? {summary : LoopSummary StepResult} (h : summary.Sorted)
    {segments : List String} {v : Json} (hpart : summary.part? segments = some v) :
    v.Sorted := by
  unfold LoopSummary.part? at hpart
  split at hpart
  · exact Option.some.inj hpart ▸ Json.sorted_canonical _
  · exact Option.some.inj hpart ▸ Json.sorted_nat _
  · obtain ⟨item, hitem, hat⟩ := Option.bind_eq_some_iff.mp hpart
    exact (h.item item hitem).at? hat
  · exact (Json.sorted_canonical _).at? hpart
  · contradiction

namespace StepResult

theorem sorted_succeed (input : Json) {output : Json} (h : output.Sorted) :
    (succeed input output).Sorted := .value h

theorem sorted_fail (input : Json) (message : String) : (fail input message).Sorted :=
  .value Json.sorted_null

theorem sorted_ofLoop (input : Json) {summary : LoopSummary StepResult} (h : summary.Sorted)
    (failure : Option String) : (ofLoop input summary failure).Sorted := by
  cases failure <;> exact .loop h.item h.scopes

namespace Sorted

variable {r : StepResult} {summary : LoopSummary StepResult}

theorem loop? (h : r.Sorted) (hloop : r.loop? = some summary) : summary.Sorted := by
  cases h with
  | value => contradiction
  | loop hitem hscopes => exact Option.some.inj hloop ▸ ⟨hitem, hscopes⟩

theorem withLoop (r : StepResult) (h : summary.Sorted) : (r.withLoop summary).Sorted :=
  .loop h.item h.scopes

/-- Every part of a sorted output is sorted. -/
theorem part? (h : r.Sorted) {segments : List String} {v : Json}
    (hpart : r.part? segments = some v) : v.Sorted := by
  cases h with
  | value hv => exact hv.at? hpart
  | loop hitem hscopes => exact LoopSummary.Sorted.part? ⟨hitem, hscopes⟩ hpart

end Sorted
end StepResult

/-! ### Scopes -/

namespace Scope.Sorted

variable {scope inner : Scope} {frame : Frame}

theorem get? (h : scope.Sorted) {name : String} {r : StepResult}
    (hr : Named.get? scope name = some r) : r.Sorted := h _ (Named.mem_of_get? hr)

theorem put (h : scope.Sorted) (name : String) {r : StepResult} (hr : r.Sorted) :
    Scope.Sorted (Named.put name r scope) := by
  intro e he
  rcases Named.mem_put he with rfl | he
  · exact hr
  · exact h e he

theorem inner? (h : scope.Sorted) (hinner : scope.inner? frame = some inner) : inner.Sorted := by
  obtain ⟨r, summary, hr, hloop, hscope⟩ := Scope.inner?_eq_some.mp hinner
  exact ((h.get? hr).loop? hloop).scopes inner (List.mem_of_getElem? hscope)

theorem setInner (h : scope.Sorted) (frame : Frame) (hinner : inner.Sorted) :
    (scope.setInner frame inner).Sorted := by
  unfold Scope.setInner
  split
  · exact h
  · rename_i r hr
    split
    · exact h
    · rename_i summary hloop
      have hsummary := (h.get? hr).loop? hloop
      refine h.put frame.1 (.withLoop r ⟨hsummary.item, fun other hother => ?_⟩)
      rcases List.mem_or_eq_of_mem_set hother with hold | rfl
      · exact hsummary.scopes other hold
      · exact hinner

end Scope.Sorted

/-! ### Traces -/

namespace Trace

/-- What changes one scope for a sorted one leaves the trace sorted. The induction is on the
path. -/
theorem sorted_modify {f : Scope → Scope} (hf : ∀ scope, scope.Sorted → (f scope).Sorted) :
    ∀ {path : Path} {t t' : Scope}, t.Sorted → modify t path f = some t' → t'.Sorted
  | [], t, t', h, hmodify => Option.some.inj hmodify ▸ hf t h
  | frame :: rest, t, t', h, hmodify => by
    obtain ⟨inner, hinner, hrest⟩ := Option.bind_eq_some_iff.mp hmodify
    obtain ⟨inner', hinner', rfl⟩ := Option.map_eq_some_iff.mp hrest
    exact h.setInner frame (sorted_modify hf (h.inner? hinner) hinner')

theorem sorted_scope? : ∀ {path : Path} {t scope : Scope}, t.Sorted →
    scope? t path = some scope → scope.Sorted
  | [], _, _, h, hscope => Option.some.inj hscope ▸ h
  | _ :: _, _, _, h, hscope => by
    obtain ⟨inner, hinner, hrest⟩ := Option.bind_eq_some_iff.mp hscope
    exact sorted_scope? (h.inner? hinner) hrest

theorem sorted_visible : ∀ {path : Path} {t : Scope} {around : List Scope}, t.Sorted →
    (∀ s ∈ around, s.Sorted) → ∀ s ∈ visible t around path, s.Sorted
  | [], _, _, h, haround => List.forall_mem_cons.mpr ⟨h, haround⟩
  | frame :: rest, t, around, h, haround => by
    have hmore := List.forall_mem_cons.mpr ⟨h, haround⟩
    rw [visible]
    cases hinner : t.inner? frame with
    | none => exact hmore
    | some inner => exact sorted_visible (h.inner? hinner) hmore

variable {t t' : Trace} {path : Path} {name : String} {r : StepResult}

/-- A record that is found in a sorted trace is sorted. -/
theorem sorted_get? (h : Scope.Sorted t) (hr : get? t path name = some r) : r.Sorted := by
  obtain ⟨scope, hscope, hget⟩ := List.exists_of_findSome?_eq_some hr
  exact (sorted_visible h (List.forall_mem_nil _) scope hscope).get? hget

theorem sorted_insert (h : Scope.Sorted t) (hr : r.Sorted) (ht : insert t path name r = some t') :
    Scope.Sorted t' :=
  sorted_modify (fun _ hscope => hscope.put name hr) h ht

theorem sorted_loop? (h : Scope.Sorted t) {summary : LoopSummary StepResult}
    (hloop : loop? t path name = some summary) : summary.Sorted := by
  obtain ⟨r, hr, hsummary⟩ := Option.bind_eq_some_iff.mp hloop
  obtain ⟨scope, hscope, hget⟩ := Option.bind_eq_some_iff.mp hr
  exact ((sorted_scope? h hscope).get? hget).loop? hsummary

theorem sorted_updateLoop {f : LoopSummary StepResult → LoopSummary StepResult}
    (hf : ∀ summary, summary.Sorted → (f summary).Sorted) (h : Scope.Sorted t)
    (ht : updateLoop t path name f = some t') : Scope.Sorted t' := by
  obtain ⟨r, hr, hupdate⟩ := Option.bind_eq_some_iff.mp ht
  obtain ⟨summary, hloop, hinsert⟩ := Option.bind_eq_some_iff.mp hupdate
  have hfound : loop? t path name = some summary := by rw [loop?, hr, Option.bind_some, hloop]
  exact sorted_insert h (.withLoop r (hf summary (sorted_loop? h hfound))) hinsert

end Trace
end Stepwise

/-
# Replacing scopes

A scope is a list of results under names, and an iteration of a loop in it is a scope
again. Setting an entry, or an iteration, twice leaves what was set last, and setting
what is already there changes nothing. So a path that leads to a scope is a place that
can be read and written: what `Trace.modify` puts there is what `Trace.scope?` finds.

Key theorems: `Named.put_put`, `Named.put_self`, `Named.put_of_not_mem`,
`Scope.inner?_setInner`, `Scope.setInner_setInner`, `Scope.setInner_self`,
`Trace.get?_cons`, `Trace.scope?_append`.
-/
import Stepwise.Trace.Basic

namespace Stepwise

namespace Named

variable {α : Type}

/-- The second of two entries under one name stays. -/
theorem put_put (name : String) (a b : α) :
    ∀ entries : Named α, put name b (put name a entries) = put name b entries
  | [] => by simp [put]
  | (n, c) :: rest => by
    by_cases h : n = name
    · simp [put, h]
    · simp [put, h, put_put name a b rest]

/-- Setting an entry to what it is changes nothing. -/
theorem put_self {name : String} {a : α} :
    ∀ {entries : Named α}, get? entries name = some a → put name a entries = entries
  | [], h => by simp [get?] at h
  | (n, b) :: rest, h => by
    by_cases hn : n = name
    · simp only [get?, hn, if_true, Option.some.injEq] at h
      simp [put, hn, h]
    · simp only [get?, hn, if_false] at h
      simp [put, hn, put_self h]

/-- A new name goes to the end. -/
theorem put_of_not_mem {name : String} (a : α) :
    ∀ {entries : Named α}, name ∉ names entries → put name a entries = entries ++ [(name, a)]
  | [], _ => rfl
  | (n, b) :: rest, h => by
    simp only [names, List.map_cons, List.mem_cons, not_or] at h
    have ih : put name a rest = rest ++ [(name, a)] := put_of_not_mem a h.2
    simp [put, Ne.symm h.1, ih]

/-- What stands in a list after an entry was set: that entry, or what stood in it. -/
theorem mem_put {name : String} {a : α} {e : String × α} :
    ∀ {entries : Named α}, e ∈ put name a entries → e = (name, a) ∨ e ∈ entries
  | [], h => by simpa [put] using h
  | (n, b) :: rest, h => by
    by_cases hn : n = name
    · simp only [put, hn, if_true, List.mem_cons] at h
      rcases h with h | h
      · exact .inl h
      · exact .inr (List.mem_cons_of_mem _ h)
    · simp only [put, hn, if_false, List.mem_cons] at h
      rcases h with h | h
      · exact .inr (h ▸ List.mem_cons_self)
      · rcases mem_put h with h | h
        · exact .inl h
        · exact .inr (List.mem_cons_of_mem _ h)

/-- The entry that was set stands in the list. -/
theorem put_mem (name : String) (a : α) : ∀ entries : Named α, (name, a) ∈ put name a entries
  | [] => by simp [put]
  | (n, b) :: rest => by
    by_cases hn : n = name
    · simp [put, hn]
    · simp [put, hn, put_mem name a rest]

theorem names_append (entries more : Named α) :
    names (entries ++ more) = names entries ++ names more := List.map_append ..

/-- An entry found under a name stands in the list. -/
theorem mem_of_get? {name : String} {a : α} :
    ∀ {entries : Named α}, get? entries name = some a → (name, a) ∈ entries
  | [], h => by simp [get?] at h
  | (n, b) :: rest, h => by
    by_cases hn : n = name
    · simp only [get?, hn, if_true, Option.some.injEq] at h
      simp [hn, h]
    · simp only [get?, hn, if_false] at h
      exact List.mem_cons_of_mem _ (mem_of_get? h)

/-- A name that no entry has leads to none. -/
theorem get?_of_not_mem {name : String} :
    ∀ {entries : Named α}, name ∉ names entries → get? entries name = none
  | [], _ => rfl
  | (n, b) :: rest, h => by
    simp only [names, List.map_cons, List.mem_cons, not_or] at h
    have ih : get? rest name = none := get?_of_not_mem h.2
    simp [get?, Ne.symm h.1, ih]

/-- Where no two entries share a name, every entry is found under its own. -/
theorem get?_of_mem {name : String} {a : α} :
    ∀ {entries : Named α}, (names entries).Nodup → (name, a) ∈ entries →
      get? entries name = some a
  | (n, b) :: rest, hnodup, h => by
    obtain ⟨hn, hrest⟩ := List.nodup_cons.mp hnodup
    rcases List.mem_cons.mp h with h | h
    · cases h
      simp [get?]
    · have hne : n ≠ name := fun he => hn (List.mem_map.mpr ⟨(name, a), h, he.symm⟩)
      simp [get?, hne, get?_of_mem hrest h]

/-- What stands first under a name in two lists, one after the other. -/
theorem get?_append (name : String) (more : Named α) :
    ∀ entries : Named α, get? (entries ++ more) name = (get? entries name).or (get? more name)
  | [] => rfl
  | (n, a) :: rest => by
    by_cases hn : n = name
    · simp [get?, hn]
    · simp [get?, hn, get?_append name more rest]

/-- The first list that has a name decides what stands under it in all of them. -/
theorem get?_flatten (name : String) :
    ∀ scopes : List (Named α), get? scopes.flatten name = scopes.findSome? (get? · name)
  | [] => rfl
  | entries :: rest => by
    rw [List.flatten_cons, get?_append, get?_flatten name rest, List.findSome?_cons]
    cases get? entries name <;> rfl

end Named

namespace StepResult

@[simp] theorem loop?_ofLoop (input : Json) (summary : LoopSummary StepResult)
    (failure : Option String) : (ofLoop input summary failure).loop? = some summary := by
  cases failure <;> rfl

@[simp] theorem loop?_withLoop (r : StepResult) (summary : LoopSummary StepResult) :
    (r.withLoop summary).loop? = some summary := rfl

@[simp] theorem withLoop_withLoop (r : StepResult) (first second : LoopSummary StepResult) :
    (r.withLoop first).withLoop second = r.withLoop second := rfl

@[simp] theorem withLoop_ofLoop (input : Json) (first second : LoopSummary StepResult)
    (failure : Option String) :
    (ofLoop input first failure).withLoop second = ofLoop input second failure := by
  cases failure <;> rfl

/-- A loop's record with its own summary is the record. -/
theorem withLoop_self {r : StepResult} {summary : LoopSummary StepResult}
    (h : r.loop? = some summary) : r.withLoop summary = r := by
  obtain ⟨input, output, status, message, duration⟩ := r
  cases output with
  | value v => simp [loop?] at h
  | loop own =>
    simp only [loop?, Option.some.injEq] at h
    simp [withLoop, h]

end StepResult

namespace Scope

/-- The first failed step of a scope stands in it and has failed. -/
theorem mem_of_firstFailure? {s : Scope} {e : String × StepResult}
    (h : s.firstFailure? = some e) : e ∈ s ∧ e.2.isFailed = true :=
  ⟨List.mem_of_find?_eq_some h, by simpa using List.find?_some h⟩

/-- An iteration is found in a scope if its loop has a record with that iteration. -/
theorem inner?_eq_some {s inner : Scope} {frame : Frame} :
    s.inner? frame = some inner ↔
      ∃ r summary, Named.get? s frame.1 = some r ∧ r.loop? = some summary ∧
        summary.iterations[frame.2]? = some inner := by
  simp only [inner?, Option.bind_eq_some_iff]
  constructor
  · rintro ⟨summary, ⟨r, hr, hl⟩, hi⟩
    exact ⟨r, summary, hr, hl, hi⟩
  · rintro ⟨r, summary, hr, hl, hi⟩
    exact ⟨summary, ⟨r, hr, hl⟩, hi⟩

/-- An iteration of a loop whose record has just been set. -/
theorem inner?_put {name : String} {r : StepResult} {summary : LoopSummary StepResult}
    {index : Nat} {inner : Scope} (s : Scope) (hl : r.loop? = some summary)
    (hi : summary.iterations[index]? = some inner) :
    Scope.inner? (Named.put name r s) (name, index) = some inner :=
  inner?_eq_some.mpr ⟨r, summary, Named.get?_put_self .., hl, hi⟩

/-- Replacing an iteration replaces it in the summary of its loop's record. -/
theorem setInner_eq {s : Scope} {frame : Frame} {r : StepResult}
    {summary : LoopSummary StepResult} (hr : Named.get? s frame.1 = some r)
    (hl : r.loop? = some summary) (inner : Scope) :
    s.setInner frame inner =
      Named.put frame.1
        (r.withLoop { summary with iterations := summary.iterations.set frame.2 inner }) s := by
  simp [setInner, hr, hl]

/-- Replacing an iteration of a loop whose record has just been set. -/
theorem setInner_put {name : String} {r : StepResult} {summary : LoopSummary StepResult}
    (s : Scope) (hl : r.loop? = some summary) (index : Nat) (inner : Scope) :
    Scope.setInner (Named.put name r s) (name, index) inner =
      Named.put name
        (r.withLoop { summary with iterations := summary.iterations.set index inner }) s := by
  have hr : Named.get? (Named.put name r s) (name, index).1 = some r := Named.get?_put_self name r s
  rw [setInner_eq hr hl, Named.put_put]

/-- A replaced iteration is found in its place. -/
theorem inner?_setInner {s : Scope} {frame : Frame} (h : (s.inner? frame).isSome)
    (inner : Scope) : (s.setInner frame inner).inner? frame = some inner := by
  obtain ⟨old, hold⟩ := Option.isSome_iff_exists.mp h
  obtain ⟨r, summary, hr, hl, hi⟩ := inner?_eq_some.mp hold
  obtain ⟨hlt, -⟩ := List.getElem?_eq_some_iff.mp hi
  rw [setInner_eq hr hl]
  exact inner?_eq_some.mpr ⟨_, _, Named.get?_put_self .., rfl, by simp [hlt]⟩

/-- The second of two scopes put in the place of one iteration stays. -/
theorem setInner_setInner (s : Scope) (frame : Frame) (first second : Scope) :
    (s.setInner frame first).setInner frame second = s.setInner frame second := by
  cases hr : Named.get? s frame.1 with
  | none => simp [setInner, hr]
  | some r =>
    cases hl : r.loop? with
    | none => simp [setInner, hr, hl]
    | some summary =>
      rw [setInner_eq hr hl, setInner_put s (StepResult.loop?_withLoop ..), setInner_eq hr hl]
      simp

/-- Putting an iteration in its own place changes nothing. -/
theorem setInner_self {s inner : Scope} {frame : Frame} (h : s.inner? frame = some inner) :
    s.setInner frame inner = s := by
  obtain ⟨r, summary, hr, hl, hi⟩ := inner?_eq_some.mp h
  obtain ⟨hlt, rfl⟩ := List.getElem?_eq_some_iff.mp hi
  rw [setInner_eq hr hl, List.set_getElem_self]
  exact Named.put_self ((StepResult.withLoop_self hl).symm ▸ hr)

end Scope

namespace Trace

/-- The scopes already passed stay where they are. -/
theorem visible_eq_append : ∀ (path : Path) (t : Scope) (around : List Scope),
    visible t around path = visible t [] path ++ around
  | [], _, _ => rfl
  | frame :: rest, t, around => by
    rw [visible, visible]
    cases t.inner? frame with
    | none => rfl
    | some inner =>
      simp only
      rw [visible_eq_append rest inner (t :: around), visible_eq_append rest inner [t],
        List.append_assoc, List.singleton_append]

theorem get?_nil (t : Trace) (name : String) : get? t [] name = Named.get? t name := by
  rw [get?, visible, List.findSome?_singleton]

/-- From a path that leads into an iteration, a name is looked up in there first. -/
theorem get?_cons {t inner : Scope} {frame : Frame} (h : t.inner? frame = some inner)
    (rest : Path) (name : String) :
    get? t (frame :: rest) name = (get? inner rest name).or (Named.get? t name) := by
  rw [get?, visible, h]
  simp only
  rw [visible_eq_append, List.findSome?_append, List.findSome?_singleton, get?]

theorem scope?_singleton (t : Scope) (frame : Frame) : scope? t [frame] = t.inner? frame :=
  Option.bind_fun_some _

/-- A path that goes on from a scope leads where it leads from there. -/
theorem scope?_append : ∀ (path rest : Path) (t : Scope),
    scope? t (path ++ rest) = (scope? t path).bind (scope? · rest)
  | [], _, _ => rfl
  | frame :: path, rest, t => by
    simp only [List.cons_append, scope?, Option.bind_assoc]
    congr 1
    funext inner
    exact scope?_append path rest inner

end Trace
end Stepwise

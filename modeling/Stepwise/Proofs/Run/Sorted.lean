/-
# A run keeps its values sorted

A template that is sorted resolves to a sorted value, as everything it can refer to is sorted.
What a run records are such values and the replies to its calls. So as long as all replies are
sorted, a run of an accepted job leaves a sorted trace, and answers with a sorted value.

Key definitions: `Reply.Sorted`, `View.Sorted`, `Process.Ends`.

Key theorems: `View.Sorted.resolve`, `Loop.sorted_iterate`, `Chain.sorted_run`,
`Job.sorted_response`.
-/
import Stepwise.Proofs.Flow.Sorted
import Stepwise.Proofs.Run.Calls
import Stepwise.Proofs.Template.Grammar
import Stepwise.Run.Report

namespace Stepwise

variable {σ : Type}

/-- If the reply is a value, it is sorted. -/
def Reply.Sorted (r : Reply) : Prop := ∀ v, r = .ok (some v) → v.Sorted

/-- Everything that a step can refer to is sorted. -/
structure View.Sorted (view : View) : Prop where
  trace : Scope.Sorted view.trace
  configs : ∀ e ∈ view.configs, e.2.Sorted

/-! ### Templates -/

namespace View.Sorted

variable {view : View}

theorem find? (h : view.Sorted) {segments : List String} {v : Json}
    (hfind : view.find? segments = some v) : v.Sorted := by
  cases segments with
  | nil => contradiction
  | cons root rest =>
    simp only [View.find?] at hfind
    split at hfind
    · cases rest with
      | nil => contradiction
      | cons key rest =>
        obtain ⟨config, hconfig, hat⟩ := Option.bind_eq_some_iff.mp hfind
        exact (h.configs _ (Named.mem_of_get? hconfig)).at? hat
    · obtain ⟨r, hr, hpart⟩ := Option.bind_eq_some_iff.mp hfind
      exact (Trace.sorted_get? h.trace hr).part? hpart

theorem placeholder (h : view.Sorted) (expression : List Char) :
    (view.placeholder expression).Sorted := by
  unfold View.placeholder
  cases hlookup : view.lookup? (Template.lookedUp expression) with
  | none => exact Json.sorted_null
  | some v =>
    obtain ⟨segments, -, hfind⟩ := Option.bind_eq_some_iff.mp hlookup
    exact h.find? hfind

theorem fill (h : view.Sorted) (t : Template) : (view.fill t).Sorted := by
  unfold View.fill
  split
  · exact h.placeholder _
  · exact Json.sorted_str _

mutual

/-- A sorted template resolves to a sorted value: keys stay as they are. -/
theorem resolve (h : view.Sorted) : ∀ {v : Json}, v.Sorted → (view.resolve v).Sorted
  | .null, hv | .bool _, hv | .num _, hv => hv
  | .str s, _ => h.fill (.ofText s)
  | .arr items, hv => by
    rw [View.resolve, Json.sorted_arr_iff]
    exact resolveList h (Json.sorted_arr_iff.mp hv)
  | .obj fields, hv => by
    obtain ⟨hkeys, hvalues⟩ := Json.sorted_obj_iff.mp hv
    rw [View.resolve, Json.sorted_obj_iff]
    refine ⟨?_, resolveFields h hvalues⟩
    rw [View.resolveFields_eq_map]
    exact List.pairwise_map.mpr hkeys

theorem resolveList (h : view.Sorted) : ∀ {items : List Json}, (∀ v ∈ items, v.Sorted) →
    ∀ v ∈ view.resolveList items, v.Sorted
  | [], _ => List.forall_mem_nil _
  | v :: vs, hitems => by
    obtain ⟨hv, hvs⟩ := List.forall_mem_cons.mp hitems
    exact List.forall_mem_cons.mpr ⟨resolve h hv, resolveList h hvs⟩

theorem resolveFields (h : view.Sorted) : ∀ {fields : Json.Fields},
    (∀ p ∈ fields, p.2.Sorted) → ∀ p ∈ view.resolveFields fields, p.2.Sorted
  | [], _ => List.forall_mem_nil _
  | (k, v) :: rest, hfields => by
    obtain ⟨hv, hrest⟩ := List.forall_mem_cons.mp hfields
    exact List.forall_mem_cons.mpr ⟨resolve h hv, resolveFields h hrest⟩

end

end View.Sorted

/-! ### What a process ends with -/

namespace Process

variable {α β : Type} {ex : Executors σ}

/-- Whatever state the process begins in, its result is such if all replies are sorted. -/
def Ends (ex : Executors σ) (p : Process α) (P : α → Prop) : Prop :=
  ∀ s, (∀ e ∈ p.calls ex s, Reply.Sorted e.2) → P (p.run ex s).1

theorem ends_done {a : α} {P : α → Prop} (h : P a) : (done a).Ends ex P := fun _ _ => h

theorem Ends.look {p : Process α} {P : α → Prop} (h : p.Ends ex P) (m : Moment) :
    (Process.look m p).Ends ex P := h

theorem Ends.bind {p : Process α} {f : α → Process β} {P : α → Prop} {Q : β → Prop}
    (h : p.Ends ex P) (hf : ∀ a, P a → (f a).Ends ex Q) : (p.bind f).Ends ex Q := by
  intro s hreplies
  rw [calls_bind, List.forall_mem_append] at hreplies
  rw [run_bind]
  exact hf _ (h s hreplies.1) _ hreplies.2

theorem Ends.map {p : Process α} {f : α → β} {P : α → Prop} {Q : β → Prop}
    (h : p.Ends ex P) (hf : ∀ a, P a → Q (f a)) : (p.map f).Ends ex Q :=
  h.bind fun a ha => ends_done (hf a ha)

end Process

/-! ### Steps -/

section Steps

variable {ex : Executors σ}

theorem Call.sorted_perform (c : Call) (input : Json) :
    (c.perform input).Ends ex StepResult.Sorted := by
  intro s hreplies
  have hreply : Reply.Sorted (ex.answer c s).1 := hreplies (c, (ex.answer c s).1) List.mem_cons_self
  show (StepResult.ofReply input (ex.answer c s).1).Sorted
  cases hfound : (ex.answer c s).1 with
  | error e => exact StepResult.sorted_fail input e.message
  | ok found =>
    cases found with
    | none => exact StepResult.sorted_succeed input Json.sorted_null
    | some v => exact StepResult.sorted_succeed input (hreply v hfound)

/-- A step with sorted templates ends with a sorted result. -/
theorem Task.sorted_perform (scene : Scene) {view : View} (hview : view.Sorted)
    {task : Task} (h : ∀ v ∈ task.templates, v.Sorted) :
    (task.perform scene view).Ends ex StepResult.Sorted := by
  cases task with
  | code s => exact Call.sorted_perform _ _
  | integration s => exact Call.sorted_perform _ _
  | storage s =>
    rw [perform, performStorage]
    obtain ⟨message, -, hact⟩ | ⟨key, -, ⟨-, hact⟩ | ⟨-, hact⟩⟩ :=
      storageAct_cases scene s (view.resolve s.key) (s.value.map view.resolve)
    · rw [hact]
      exact Process.ends_done (StepResult.sorted_fail _ message)
    · rw [hact]
      exact Call.sorted_perform _ _
    · rw [hact]
      exact Call.sorted_perform _ _
  | response s =>
    have houtput := hview.resolve (h s.output List.mem_cons_self)
    exact Process.ends_done (StepResult.sorted_succeed _ houtput)

namespace Loop

variable {name : String} {path : Path} {body : Path → Trace → Process (Bool × Trace)}

/-- A loop over sorted items keeps the trace sorted if its body does. The induction is on the
items. -/
theorem sorted_iterate (hbody : ∀ path t, Scope.Sorted t →
    (body path t).Ends ex fun out => Scope.Sorted out.2) :
    ∀ {items : List Json} {index : Nat} {t : Trace}, (∀ v ∈ items, v.Sorted) → Scope.Sorted t →
      (iterate name path body index items t).Ends ex fun out => Scope.Sorted out.2
  | [], _, _, _, ht => Process.ends_done ht
  | item :: items, index, t, hitems, ht => by
    obtain ⟨hitem, hrest⟩ := List.forall_mem_cons.mp hitems
    unfold iterate
    split
    · exact Process.ends_done ht
    · rename_i opened hopened
      have hsorted := Trace.sorted_updateLoop (fun _ h => h.enter index hitem) ht hopened
      refine (hbody _ _ hsorted).bind fun ⟨completed, t⟩ ht => ?_
      cases completed with
      | true => exact sorted_iterate hbody hrest ht
      | false => exact Process.ends_done ht

theorem sorted_conclude {t : Trace} (ht : Scope.Sorted t) (input : Json)
    (failure : Option String) :
    (conclude name path input failure t).1.Sorted ∧
      Scope.Sorted (conclude name path input failure t).2 := by
  constructor
  · refine StepResult.sorted_ofLoop input ?_ failure
    cases hloop : Trace.loop? t path name with
    | none => exact LoopSummary.sorted_initial
    | some summary => exact Trace.sorted_loop? ht hloop
  · show Scope.Sorted ((Trace.updateLoop t path name fun _ => .initial).getD t)
    cases hupdate : Trace.updateLoop t path name fun _ => .initial with
    | none => exact ht
    | some t' => exact Trace.sorted_updateLoop (fun _ _ => LoopSummary.sorted_initial) ht hupdate

theorem sorted_perform (hbody : ∀ path t, Scope.Sorted t →
    (body path t).Ends ex fun out => Scope.Sorted out.2) {resolved : Json}
    (hresolved : resolved.Sorted) {t : Trace} (ht : Scope.Sorted t) :
    (perform name path body resolved t).Ends ex
      fun out => out.1.Sorted ∧ Scope.Sorted out.2 := by
  unfold perform
  split
  · rename_i items
    have hitems : ∀ v ∈ items, v.Sorted := Json.sorted_arr_iff.mp hresolved
    have hbegun : ∀ input, Scope.Sorted
        ((Trace.insert t path name (.ofLoop input .initial none)).getD t) := by
      intro input
      cases hinsert : Trace.insert t path name (.ofLoop input .initial none) with
      | none => exact ht
      | some t' =>
        exact Trace.sorted_insert ht
          (StepResult.sorted_ofLoop input LoopSummary.sorted_initial none) hinsert
    exact (sorted_iterate hbody hitems (hbegun _)).map
      fun out hout => sorted_conclude hout _ out.1
  · exact Process.ends_done ⟨StepResult.sorted_fail _ _, ht⟩

end Loop

/-! ### Chains -/

namespace Chain

theorem sorted_record {path : Path} {name : String} {r : StepResult} {t : Trace}
    {next : Trace → Process (Bool × Trace)} (hr : r.Sorted) (ht : Scope.Sorted t)
    (hnext : ∀ t, Scope.Sorted t → (next t).Ends ex fun out => Scope.Sorted out.2) :
    (record path name r t next).Ends ex fun out => Scope.Sorted out.2 := by
  unfold record
  split
  · exact Process.ends_done ht
  · rename_i t' hinsert
    have ht' := Trace.sorted_insert ht hr hinsert
    split
    · exact Process.ends_done ht'
    · exact hnext t' ht'

/-- A chain with sorted templates keeps the trace sorted. The induction is on the chain. -/
theorem sorted_run {scene : Scene} (hscene : ∀ e ∈ scene.configs, e.2.Sorted) :
    ∀ {chain : Chain} {path : Path} {t : Trace}, (∀ a ∈ chain.walk, a.Sorted) →
      Scope.Sorted t → (chain.run scene path t).Ends ex fun out => Scope.Sorted out.2
  | .nil, _, _, _, ht => Process.ends_done ht
  | .step label task rest, path, t, h, ht => by
    obtain ⟨htask, hrest⟩ := List.forall_mem_cons.mp h
    have hview : (scene.view path t).Sorted := ⟨ht, hscene⟩
    refine Process.Ends.look ((Task.sorted_perform scene hview htask).bind fun r hr => ?_) _
    exact sorted_record hr ht fun t ht => sorted_run hscene hrest ht
  | .loop label settings body rest, path, t, h, ht => by
    obtain ⟨hloop, hmore⟩ := List.forall_mem_cons.mp h
    obtain ⟨hbody, hrest⟩ := List.forall_mem_append.mp hmore
    have hview : (scene.view path t).Sorted := ⟨ht, hscene⟩
    have hresolved := hview.resolve (hloop settings.items List.mem_cons_self)
    have hperform : (Loop.perform label.name path (body.run scene)
        ((scene.view path t).resolve settings.items) t).Ends ex
          fun out => out.1.Sorted ∧ Scope.Sorted out.2 :=
      Loop.sorted_perform (fun _ _ ht => sorted_run hscene hbody ht) hresolved ht
    refine Process.Ends.look (hperform.bind fun out hout => ?_) _
    exact sorted_record hout.1 hout.2 fun t ht => sorted_run hscene hrest ht

end Chain

end Steps

/-! ### Runs -/

namespace Job

variable {job : Job} {ex : Executors σ} {s : σ}

theorem sorted_trace (h : job.Sorted) (hreplies : ∀ e ∈ job.process.calls ex s, Reply.Sorted e.2) :
    Scope.Sorted (job.process.run ex s).1.2 := by
  have hseed : Scope.Sorted [(triggerStep, job.seed)] :=
    List.forall_mem_singleton.mpr (StepResult.sorted_succeed _ h.payload)
  exact Chain.sorted_run h.configs h.templates hseed s hreplies

theorem sorted_lastResponse {t : Trace} (ht : Scope.Sorted t) {v : Json}
    (h : job.lastResponse t = some v) : v.Sorted := by
  obtain ⟨r, hr, hpart⟩ := Option.bind_eq_some_iff.mp h
  obtain ⟨a, -, hfound⟩ := List.mem_filterMap.mp (List.mem_of_getLast? hr)
  split at hfound
  · obtain ⟨found, hget, hsucceeded⟩ := Option.bind_eq_some_iff.mp hfound
    split at hsucceeded
    · contradiction
    · cases hsucceeded
      exact (Scope.Sorted.get? ht hget).part? hpart
  · contradiction

/-- If all replies are sorted, a run of an accepted job answers with a sorted value. -/
theorem sorted_response {generated : String} {document : Json}
    (h : ofJson generated document = .ok job)
    (hreplies : ∀ e ∈ job.process.calls ex s, Reply.Sorted e.2) {startedAt : Timestamp}
    {durationMs : Nat} {v : Json}
    (hv : (job.report ex s startedAt durationMs).1.response = some v) : v.Sorted :=
  sorted_lastResponse (sorted_trace (sorted_of_ofJson h) hreplies) hv

end Job
end Stepwise

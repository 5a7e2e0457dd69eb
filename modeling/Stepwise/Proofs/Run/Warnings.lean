/-
# What the check reports of references

The check of a flow reports, for each step, the references in its templates that lead to no
step, to no trigger and to no configuration. Whenever the step looks, what it then looks up
are the expressions in those very templates. The scopes that it sees hold records under the
names of steps, and the outermost one that of the trigger: so a reference that is reported is
found nowhere, from whatever iteration it is looked up. And whatever else the step looks up,
unless it is blank, leads to one of those names.

Key definitions: `Task.inquiry`, `Work.inquiry`.

Key theorems: `Work.answer_inquiry`, `Work.asked_inquiry`, `Job.lookup?_eq_none`,
`Job.reports_hold`.
-/
import Mathlib.Data.List.Nodup
import Stepwise.Proofs.Run.LoopSight
import Stepwise.Proofs.Run.Looks
import Stepwise.Proofs.Template.Inquiry

namespace Stepwise

variable {σ : Type}

/-! ### What a step looks up -/

/-- Resolving a value that need not be there. -/
def optionInquiry : Option Json → Inquiry (Option Json)
  | none => .done none
  | some v => v.inquiry.map some

namespace Task

/-- What a task does, found out by looking expressions up. -/
def inquiry (scene : Scene) : Task → Inquiry (Process StepResult)
  | .code s => s.input.inquiry.map fun input =>
    (Call.code s.artifact input).perform (.obj [("artifact", .str s.artifact), ("input", input)])
  | .integration s => s.input.inquiry.map fun input =>
    (Call.integration s.integration s.action input).perform
      (.obj [("actionName", .str s.action), ("input", input),
        ("integrationName", .str s.integration)])
  | .storage s => s.key.inquiry.bind fun key => (optionInquiry s.value).map (storageAct scene s key)
  | .response s => s.output.inquiry.map fun output =>
    .done (.succeed (.obj [("output", output)]) output)

end Task

/-- What an action does from where it stands, found out by looking expressions up. -/
def Work.inquiry (scene : Scene) (name : String) (path : Path) (t : Trace) :
    Work → Inquiry (Process (StepResult × Trace))
  | .task once => (once.inquiry scene).map fun p => p.map (·, t)
  | .loop settings body => settings.items.inquiry.map fun resolved =>
    Loop.perform name path (body.run scene) resolved t

theorem answer_optionInquiry (view : View) (v : Option Json) :
    (optionInquiry v).answer view.lookup? = v.map view.resolve := by
  cases v with
  | none => rfl
  | some v => rw [optionInquiry, Inquiry.answer_map, Json.answer_inquiry, Option.map_some]

theorem asked_optionInquiry (lookup : String → Option Json) (v : Option Json) :
    (optionInquiry v).asked lookup = v.toList.flatMap Json.expressions := by
  cases v with
  | none => rfl
  | some v =>
    rw [optionInquiry, Inquiry.asked_map, Json.asked_inquiry]
    exact (List.flatMap_singleton _ _).symm

/-- What a task finds out is what it does. -/
theorem Task.answer_inquiry (scene : Scene) (view : View) (task : Task) :
    (task.inquiry scene).answer view.lookup? = task.perform scene view := by
  cases task with
  | code s => rw [inquiry, Inquiry.answer_map, Json.answer_inquiry]; rfl
  | integration s => rw [inquiry, Inquiry.answer_map, Json.answer_inquiry]; rfl
  | storage s =>
    rw [inquiry, Inquiry.answer_bind, Inquiry.answer_map, Json.answer_inquiry,
      answer_optionInquiry]
    rfl
  | response s => rw [inquiry, Inquiry.answer_map, Json.answer_inquiry]; rfl

/-- What an action finds out with the view from where it stands is what it does there. -/
theorem Work.answer_inquiry (scene : Scene) (name : String) (path : Path) (t : Trace)
    (work : Work) : (work.inquiry scene name path t).answer (scene.view path t).lookup? =
      work.perform scene name path t := by
  cases work with
  | task once => rw [inquiry, Inquiry.answer_map, Task.answer_inquiry, perform]
  | loop settings body => rw [inquiry, Inquiry.answer_map, Json.answer_inquiry, perform]

theorem Task.asked_inquiry (scene : Scene) (lookup : String → Option Json) (task : Task) :
    (task.inquiry scene).asked lookup = task.templates.flatMap Json.expressions := by
  cases task with
  | code s =>
    rw [inquiry, Inquiry.asked_map, Json.asked_inquiry]
    exact (List.flatMap_singleton _ _).symm
  | integration s =>
    rw [inquiry, Inquiry.asked_map, Json.asked_inquiry]
    exact (List.flatMap_singleton _ _).symm
  | storage s =>
    rw [inquiry, Inquiry.asked_bind, Inquiry.asked_map, Json.asked_inquiry, asked_optionInquiry,
      templates, List.flatMap_cons]
  | response s =>
    rw [inquiry, Inquiry.asked_map, Json.asked_inquiry]
    exact (List.flatMap_singleton _ _).symm

/-- What an action looks up are the expressions in its templates. -/
theorem Work.asked_inquiry (scene : Scene) (name : String) (path : Path) (t : Trace)
    (lookup : String → Option Json) (work : Work) :
    (work.inquiry scene name path t).asked lookup = work.templates.flatMap Json.expressions := by
  cases work with
  | task once => rw [inquiry, Inquiry.asked_map, Task.asked_inquiry, templates]
  | loop settings body =>
    rw [inquiry, Inquiry.asked_map, Json.asked_inquiry]
    exact (List.flatMap_singleton _ _).symm

/-! ### What is reported -/

namespace Flow

/-- The references in an action are what it looks up, the blank expressions aside. -/
theorem mem_references_iff {a : Action} {e : String} :
    e ∈ references a ↔ e ∈ a.work.templates.flatMap Json.expressions ∧ e ≠ "" := by
  simp only [references, Json.expressions, Template.references_eq_filter, List.mem_flatMap,
    List.mem_filter, decide_eq_true_eq]
  constructor
  · rintro ⟨v, hv, s, hs, he, hblank⟩
    exact ⟨⟨v, hv, s, hs, he⟩, hblank⟩
  · rintro ⟨⟨v, hv, s, hs, he⟩, hblank⟩
    exact ⟨v, hv, s, hs, he, hblank⟩

/-- The names that a reference may lead to. -/
def knownNames (f : Flow) : List String := f.actions.map (·.label.name) ++ reservedNames

theorem mem_unknownReferences {f : Flow} {name reference : String} :
    (name, reference) ∈ f.unknownReferences ↔ ∃ a ∈ f.actions, a.label.name = name ∧
      reference ∈ references a ∧ isKnown f.knownNames reference = false := by
  simp only [unknownReferences, List.mem_flatMap, List.mem_map, List.mem_filter, Prod.mk.injEq,
    Bool.not_eq_true']
  constructor
  · rintro ⟨a, ha, _, ⟨hreference, hunknown⟩, rfl, rfl⟩
    exact ⟨a, ha, rfl, hreference, hunknown⟩
  · rintro ⟨a, ha, rfl, hreference, hunknown⟩
    exact ⟨a, ha, reference, ⟨hreference, hunknown⟩, rfl, rfl⟩

theorem isKnown_eq {names : List String} {reference root : String} {rest : List String}
    (h : Reference.segments? reference = some (root :: rest)) :
    isKnown names reference = names.contains root := by
  rw [isKnown, h]

/-- A known reference leads to one of the names. -/
theorem exists_root_of_isKnown {names : List String} {reference : String}
    (h : isKnown names reference = true) :
    ∃ root rest, Reference.segments? reference = some (root :: rest) ∧ root ∈ names := by
  unfold isKnown at h
  split at h
  · rename_i root rest hsegments
    exact ⟨root, rest, hsegments, List.contains_iff_mem.mp h⟩
  · contradiction

end Flow

namespace Job

variable {job : Job} {ex : Executors σ} {s s' : σ} {m : Moment}

/-- Whatever the name, a step finds a record under it only if a step of the flow has it, or
the trigger. -/
theorem get?_eq_none (h : job.flow.check = .ok ()) (hm : .look m ∈ job.process.trail ex s)
    {name : String} (hname : name ∉ job.flow.knownNames) :
    Trace.get? m.trace m.path name = none := by
  obtain ⟨hsteps, hreserved⟩ := not_or.mp (mt List.mem_append.mpr hname)
  have husable := Flow.usableNames_of_check h
  have hnew : ∀ other ∈ job.flow.trigger.chain.names,
      other ∉ Named.names [(triggerStep, job.seed)] := by
    intro other hother hmem
    have htrigger : other = triggerStep := List.mem_singleton.mp hmem
    rw [htrigger] at hother
    exact husable.notReserved _ (Chain.names_subset_allNames _ hother) (by decide)
  obtain ⟨below, added, hshows⟩ :=
    Chain.shows_of_mem (Chain.namesApart_of_nodup husable.nodup) hnew (look_mem_trail.mp hm) rfl
  have hpath : m.path = below := hshows.path_eq
  have htrace : m.trace = [(triggerStep, job.seed)] ++ added := hshows.trace_eq
  have hbelow : Trace.get? m.trace m.path name = Named.get? m.trace name := by
    rw [hpath, htrace]
    exact hshows.holdsBelow.get?_eq hsteps
  rw [hbelow, htrace]
  refine Named.get?_of_not_mem fun hmem => ?_
  rcases List.mem_cons.mp hmem with htrigger | hadded
  · have hmem : triggerStep ∈ reservedNames := by decide
    exact hreserved (htrigger ▸ hmem)
  · exact hsteps (Chain.names_subset_allNames _ (hshows.added_subset hadded))

/-- A reference to an unknown name refers to nothing whenever a step looks. -/
theorem lookup?_eq_none (h : job.flow.check = .ok ()) (hm : .look m ∈ job.process.trail ex s)
    {reference : String} (hunknown : Flow.isKnown job.flow.knownNames reference = false) :
    (job.scene.view m.path m.trace).lookup? reference = none := by
  unfold View.lookup?
  cases hsegments : Reference.segments? reference with
  | none => rfl
  | some segments =>
    cases segments with
    | nil => rfl
    | cons root rest =>
      have hroot : root ∉ job.flow.knownNames := by
        rw [Flow.isKnown_eq hsegments, ← Bool.not_eq_true, List.contains_iff_mem] at hunknown
        exact hunknown
      have hconfigs : root ≠ configsRoot := by
        rintro rfl
        exact hroot (List.mem_append_right _ (by decide))
      have hnone := get?_eq_none h hm hroot
      rw [Option.bind_some]
      show (if root = configsRoot then _
        else (Trace.get? m.trace m.path root).bind (·.part? rest)) = _
      rw [if_neg hconfigs, hnone, Option.bind_none]

/-- **The report of references is sound and complete for names.** Whenever a run looks, the
action with that name begins its work, which is what its inquiry finds out with what is seen
there. Each reference that the check reports for it is looked up and refers to nothing, so that
its placeholders are null. Any other expression that is looked up and is not blank leads to a
step of the flow, to the trigger or to the configuration. -/
theorem reports_hold (h : job.flow.check = .ok ()) {next : Process (Bool × Trace)}
    (hlooks : job.process.Looks ex s m next s') :
    ∃ a ∈ job.flow.actions, a.label.name = m.name ∧
      (∀ b ∈ job.flow.actions, b.label.name = m.name → b = a) ∧
      let view := job.scene.view m.path m.trace
      let inquiry := a.work.inquiry job.scene m.name m.path m.trace
      (∃ after, next = (inquiry.answer view.lookup?).bind after) ∧
      (∀ r, (m.name, r) ∈ job.flow.unknownReferences →
        r ∈ inquiry.asked view.lookup? ∧ view.lookup? r = none ∧
          ∀ e, Template.lookedUp e = r → view.placeholder e = .null) ∧
      ∀ e ∈ inquiry.asked view.lookup?, e ≠ "" → (m.name, e) ∉ job.flow.unknownReferences →
        ∃ root rest, Reference.segments? e = some (root :: rest) ∧
          (root ∈ job.flow.actions.map (·.label.name) ∨ root = triggerStep ∨
            root = configsRoot) := by
  have hm : .look m ∈ job.process.trail ex s := hlooks.mem_trail
  obtain ⟨a, ha, hname, after, hnext⟩ := Chain.begins_of_looks hlooks
  have honly : ∀ b ∈ job.flow.actions, b.label.name = m.name → b = a := by
    intro b hb hsame
    have hnodup := (Flow.usableNames_of_check h).nodup
    exact List.inj_on_of_nodup_map hnodup hb ha (hsame.trans hname.symm)
  refine ⟨a, ha, hname, honly, ⟨after, ?_⟩, fun r hr => ?_, fun e he hblank hunreported => ?_⟩
  · rw [Work.answer_inquiry]
    exact hnext
  · obtain ⟨b, hb, hsame, hreference, hunknown⟩ := Flow.mem_unknownReferences.mp hr
    rw [honly b hb hsame, Flow.mem_references_iff] at hreference
    have hnone := lookup?_eq_none h hm hunknown
    refine ⟨?_, hnone, ?_⟩
    · rw [Work.asked_inquiry]
      exact hreference.1
    · rintro e rfl
      rw [View.placeholder, hnone, Option.getD_none]
  · rw [Work.asked_inquiry] at he
    have hknown : Flow.isKnown job.flow.knownNames e = true := by
      by_contra hunknown
      rw [Bool.not_eq_true] at hunknown
      exact hunreported (Flow.mem_unknownReferences.mpr
        ⟨a, ha, hname, Flow.mem_references_iff.mpr ⟨he, hblank⟩, hunknown⟩)
    obtain ⟨root, rest, hsegments, hroot⟩ := Flow.exists_root_of_isKnown hknown
    refine ⟨root, rest, hsegments, ?_⟩
    rcases List.mem_append.mp hroot with hstep | hreserved
    · exact .inl hstep
    · exact .inr (by simpa [reservedNames, triggerStep, configsRoot] using hreserved)

end Job

/-! ### A misspelled reference -/

/-- Whether the event is a look of the step from the scope at the path. -/
def Event.looksAs (name : String) (path : Path) : Event → Bool
  | .look m => m.name = name && m.path = path
  | .call _ _ => false

namespace Misspelled

/-- The step in the loop refers to the item of a loop that has another name. -/
def chain : Chain :=
  .loop ⟨"rows", none⟩ ⟨.str "${trigger.rows}"⟩
    (.step ⟨"check", none⟩ (.code ⟨"checker", .str "${row.currentItem}: ${rows.currentItem}"⟩)
      .nil) .nil

def job : Job := ⟨"run-1", "default", none, [], Grid.payload, ⟨.empty, .empty, chain⟩⟩

end Misspelled

theorem Job.reports_hold_misspelled :
    Misspelled.job.flow.check = .ok () ∧
      Misspelled.job.flow.unknownReferences = [("check", "row.currentItem")] ∧
      ∃ m, .look m ∈ Misspelled.job.process.trail Grid.lenient.executors ⟨[], []⟩ ∧
        m.path = [("rows", 1)] ∧
        (Misspelled.job.scene.view m.path m.trace).lookup? "row.currentItem" = none := by
  have hcheck : Misspelled.job.flow.check = .ok () := rfl
  have hunknown : Misspelled.job.flow.unknownReferences = [("check", "row.currentItem")] := by
    decide +kernel
  have hany : (Misspelled.job.process.trail Grid.lenient.executors ⟨[], []⟩).any
      (Event.looksAs "check" [("rows", 1)]) = true := by decide +kernel
  refine ⟨hcheck, hunknown, ?_⟩
  obtain ⟨event, hevent, hlooks⟩ := List.any_eq_true.mp hany
  cases event with
  | call c r => contradiction
  | look m =>
    obtain ⟨hname, hpath⟩ := (Bool.and_eq_true _ _).mp hlooks
    obtain ⟨next, s', hlooks⟩ := Process.exists_looks hevent
    obtain ⟨a, -, -, -, -, hreported, -⟩ := reports_hold hcheck hlooks
    have hpair : (m.name, "row.currentItem") ∈ Misspelled.job.flow.unknownReferences := by
      rw [hunknown, of_decide_eq_true hname]
      exact List.mem_singleton_self _
    obtain ⟨-, hnone, -⟩ := hreported _ hpair
    exact ⟨m, hevent, of_decide_eq_true hpath, hnone⟩

end Stepwise

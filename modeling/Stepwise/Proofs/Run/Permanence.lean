/-
# What is recorded stays

Once a step has finished and its result has been recorded, the record is there to stay. At
every later moment of the run at which a step looks from the same scope, or from one inside
of it, the record stands where it was put, behind the records that were there before it; no
scope further inside has a record of that name; and every reference to the step leads into
what it put out. Later steps write to the same scope and to the scopes in it, and loops
write their own record twice: what keeps them away is that no two steps share a name.

Key definitions: `Entry.StandsAt`, `Entry.KeptAt`, `Mark.Keeps`.
Key theorems: `Entry.StandsAt.lookup?_eq`, `Mark.positional_stands`, `Job.records_stay`.
-/
import Mathlib.Data.List.Infix
import Stepwise.Proofs.Run.Sight

namespace Stepwise

variable {σ : Type}

/-- The record is in its place at the moment, and is what a step sees under its name. -/
structure Entry.StandsAt (e : Entry) (m : Moment) : Prop where
  /-- The record has neither been replaced nor moved, and nothing before it either. -/
  stays : ∃ before after,
    Trace.scope? e.trace e.path = some (before ++ [(e.name, e.result)]) ∧
      Trace.scope? m.trace e.path = some (before ++ (e.name, e.result) :: after)
  /-- No scope further inside, on the way to the step that looks, has a record of the name. -/
  unshadowed : ∀ frames inner, frames ≠ [] → e.path ++ frames <+: m.path →
    Trace.scope? m.trace (e.path ++ frames) = some inner → e.name ∉ Named.names inner
  found : Trace.get? m.trace m.path e.name = some e.result

/-- The record is in its place at the moment, and references to it lead into it. -/
structure Entry.KeptAt (scene : Scene) (e : Entry) (m : Moment) : Prop extends
    e.StandsAt m where
  resolves : ∀ expression segments,
    Reference.segments? expression = some (e.name :: segments) →
      (scene.view m.path m.trace).lookup? expression = e.result.part? segments

/-- If the first mark records a result, and the second is a look from the scope of the
record or from further inside, then the record is kept. -/
def Mark.Keeps (scene : Scene) (first second : Mark) : Prop :=
  ∀ e m, first = .record e → second = .look m → e.path <+: m.path → e.KeptAt scene m

/-! ### One record -/

/-- A reference leads into the record that is found under its first segment. -/
theorem Entry.StandsAt.lookup?_eq {e : Entry} {m : Moment} (h : e.StandsAt m) (scene : Scene)
    (hroot : e.name ≠ configsRoot) {expression : String} {segments : List String}
    (hsegments : Reference.segments? expression = some (e.name :: segments)) :
    (scene.view m.path m.trace).lookup? expression = e.result.part? segments := by
  rw [View.lookup?, hsegments, Option.bind_some]
  show (if e.name = configsRoot then _
    else (Trace.get? m.trace m.path e.name).bind (·.part? segments)) = _
  rw [if_neg hroot, h.found, Option.bind_some]

/-- A record that goes to the end of a scope stands while the rest of the chain runs. -/
theorem Chain.Shows.standsAt {rest : Chain} {around : Surroundings} {scope : Scope}
    {name : String} {r : StepResult} {m : Moment} (hnew : name ∉ Named.names scope)
    (hname : name ∉ rest.allNames) (h : rest.Shows around (scope ++ [(name, r)]) m) :
    Entry.StandsAt ⟨around.path, name, r, around.fill (scope ++ [(name, r)])⟩ m := by
  obtain ⟨below, added, h⟩ := h
  have hassoc : scope ++ [(name, r)] ++ added = scope ++ (name, r) :: added := by
    rw [List.append_assoc, List.singleton_append]
  refine ⟨⟨scope, added, Surroundings.scope?_fill .., ?_⟩, ?_, ?_⟩
  · rw [h.trace_eq, hassoc]
    exact Surroundings.scope?_fill ..
  · intro frames inner hne hprefix hscope hmem
    rw [h.path_eq, List.prefix_append_right_inj] at hprefix
    rw [h.trace_eq, Surroundings.scope?_fill_append] at hscope
    exact hname (h.holdsBelow frames inner hne hprefix hscope hmem)
  · have hown : Named.get? (scope ++ [(name, r)] ++ added) name = some r := by
      rw [hassoc, Named.get?_append, Named.get?_of_not_mem hnew, Option.none_or]
      exact if_pos rfl
    rw [h.trace_eq, h.path_eq, Surroundings.get?_fill_append, h.holdsBelow.get?_eq hname, hown,
      Option.some_or]

/-- That records stand can be told from where they are. -/
theorem Mark.positional_stands : Mark.Positional fun first second =>
    ∀ e m, first = .record e → second = .look m → e.path <+: m.path → e.StandsAt m where
  apart := by
    rintro _ _ hapart e m rfl rfl hprefix
    exact absurd hprefix (hapart _ m rfl rfl)
  look := by
    intro m b _ e m' hrecord
    contradiction
  record := by
    rintro rest around scope name r _ hnew hname hshows e m hrecord rfl -
    cases hrecord
    exact (hshows m rfl).standsAt hnew hname

/-! ### A run -/

/-- Whether the marks begin with the recording of one step, and with the look of another
from the same scope. -/
def Mark.handsOver (first second : String) : List Mark → Bool
  | .record e :: .look m :: _ => e.name = first ∧ m.name = second ∧ e.path = m.path
  | _ => false

theorem Mark.exists_of_handsOver {first second : String} {marks : List Mark}
    (h : Mark.handsOver first second marks = true) : ∃ e m,
      [Mark.record e, .look m] <+: marks ∧ e.name = first ∧ m.name = second ∧
        e.path = m.path := by
  unfold handsOver at h
  split at h
  · exact ⟨_, _, ⟨_, rfl⟩, of_decide_eq_true h⟩
  · contradiction

namespace Job

variable {generated : String} {document : Json} {job : Job}

/-- No step of an accepted job has the name that stands for the configuration. -/
theorem name_ne_configsRoot (h : ofJson generated document = .ok job) {name : String}
    (hname : name ∈ job.flow.trigger.chain.allNames) : name ≠ configsRoot := by
  rintro rfl
  exact notReserved h hname (by decide)

/-- **What is recorded stays.** The history of a run is its trail with the recordings in
their places, that of the trigger first; and every later look finds what is recorded. -/
theorem records_stay (h : ofJson generated document = .ok job) (ex : Executors σ) (s : σ) :
    (job.history ex s).filterMap Mark.event? = job.process.trail ex s ∧
      (job.history ex s).Pairwise (Mark.Keeps job.scene) := by
  refine ⟨(job.trail_eq_history ex s).symm, ?_⟩
  have hnodup : job.flow.trigger.chain.allNames.Nodup := (usableNames_of_ofJson h).nodup
  have htrigger : triggerStep ∉ job.flow.trigger.chain.allNames := fun hmem =>
    notReserved h hmem (by decide)
  -- The trigger is recorded before the chain begins, so all of the chain comes after it.
  rw [history_eq_chronicle]
  have hshows : ∀ mark ∈ job.flow.trigger.chain.chronicle job.scene ex []
      [(triggerStep, job.seed)] s, ∀ m, mark.moment? = some m →
        job.flow.trigger.chain.Shows [] ([] ++ [(triggerStep, job.seed)]) m :=
    fun mark hmark m => Chain.shows_of_mem (namesApart h) (names_new h) hmark
  have hchain : (job.flow.trigger.chain.chronicle job.scene ex []
      [(triggerStep, job.seed)] s).Pairwise _ :=
    Chain.pairwise_chronicle Mark.positional_stands _ [] _ s hnodup (names_new h)
  refine List.pairwise_cons.mpr ⟨?_, hchain.imp_of_mem fun hfirst _ hstands => ?_⟩
  · rintro _ hmark e m hrecord rfl -
    cases hrecord
    have hstands : Entry.StandsAt job.opening m :=
      (hshows _ hmark m rfl).standsAt List.not_mem_nil htrigger
    have hname : triggerStep ≠ configsRoot := by decide
    exact ⟨hstands, fun _ _ => hstands.lookup?_eq job.scene hname⟩
  · rintro e m rfl hlook hprefix
    obtain ⟨below, added, hshown⟩ := hshows _ hfirst _ rfl
    have hstands := hstands e m rfl hlook hprefix
    exact ⟨hstands, fun _ _ => hstands.lookup?_eq job.scene
      (name_ne_configsRoot h hshown.name_mem)⟩

/-- Among what is kept is the record of the loop, for the step after it. -/
theorem records_stay_grid :
    ofJson "run-1" Grid.document = .ok (Grid.job "run-1") ∧
      let history := (Grid.job "run-1").history Grid.lenient.executors ⟨[], []⟩
      history.filterMap Mark.event? =
          (Grid.job "run-1").process.trail Grid.lenient.executors ⟨[], []⟩ ∧
        history.Pairwise (Mark.Keeps (Grid.job "run-1").scene) ∧
        ∃ e m, [Mark.record e, .look m].Sublist history ∧ e.name = "rows" ∧
          m.name = "answer" ∧ e.KeptAt (Grid.job "run-1").scene m := by
  obtain ⟨htrail, hkeeps⟩ :=
    records_stay (Grid.accepted "run-1") Grid.lenient.executors ⟨[], []⟩
  have hany : ((Grid.job "run-1").history Grid.lenient.executors ⟨[], []⟩).tails.any
      (Mark.handsOver "rows" "answer") = true := by decide +kernel
  obtain ⟨marks, hmarks, hpair⟩ := List.any_eq_true.mp hany
  obtain ⟨e, m, hprefix, hname, hlooker, hpath⟩ := Mark.exists_of_handsOver hpair
  have hsublist := hprefix.sublist.trans ((List.mem_tails _ _).mp hmarks).sublist
  have hkept := List.pairwise_pair.mp (hkeeps.sublist hsublist)
  exact ⟨Grid.accepted "run-1", htrail, hkeeps, e, m, hsublist, hname, hlooker,
    hkept e m rfl rfl (hpath ▸ List.prefix_rfl)⟩

/-- Steps look and are recorded in turn, a loop around what its iterations do. -/
example :
    (((Grid.job "run-1").history Grid.lenient.executors ⟨[], []⟩).filterMap
      Mark.moment?).map (·.name) =
      ["trigger", "rows", "cells", "check", "check", "cells", "cells", "check", "check", "check",
        "check", "check", "check", "cells", "rows", "answer", "answer"] := by decide +kernel

end Job
end Stepwise

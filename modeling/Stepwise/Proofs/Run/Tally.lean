/-
# Loop records add up

While a loop runs, its summary is changed item by item: the number and the item of the
iteration under way, and its scope. What is recorded in the end adds up. There is one scope
for each item that the loop came to; the number and the item are those of the last of them;
and unless the loop came to the end of its items, it stopped in that last one, at the step
whose message is the loop's own, after iterations in which the whole body succeeded.

Key definitions: `Chain.Completes`, `Loop.AddsUp`, `Loop.Tallied`, `Job.Tallies`.
Key theorems: `Loop.Iterated.ends`, `Loop.Recorded.tallied`, `Chain.Leaves.recorded_of_mem`,
`Job.report_tallies`.
-/
import Stepwise.Proofs.Run.Shape

namespace Stepwise

variable {scene : Scene} {σ : Type}

/-- Records of a run of the whole chain, in which every step succeeded. -/
def Chain.Completes (chain : Chain) (entries : Scope) : Prop :=
  Named.names entries = chain.names ∧ ∀ e ∈ entries, e.2.status = .succeeded

namespace Loop

/-- The record of a loop over items fits the summary in it. -/
structure AddsUp (body : Chain) (items : List Json) (r : StepResult)
    (summary : LoopSummary StepResult) : Prop where
  length_le : summary.iterations.length ≤ items.length
  currentIteration : summary.currentIteration =
    if summary.iterations.length = 0 then 1 else summary.iterations.length
  currentItem : summary.currentItem =
    if summary.iterations.length = 0 then none else items[summary.iterations.length - 1]?
  succeeded_iff : r.status = .succeeded ↔ summary.iterations.length = items.length ∧
    ∀ scope ∈ summary.iterations, ∀ e ∈ scope, e.2.status ≠ .failed
  /-- A loop that failed did so at the last step of its last iteration. -/
  stopped : r.status = .failed → ∃ earlier last e, summary.iterations = earlier ++ [last] ∧
    last.filter (·.2.isFailed) = [e] ∧ last.getLast? = some e ∧ r.message.isSome = true ∧
    e.2.message = r.message ∧ ∀ scope ∈ earlier, body.Completes scope
  bodiless : body = .nil → r.status = .succeeded ∧
    summary.iterations = List.replicate items.length []

/-- The record that a loop with this body can have. -/
inductive Tallied (body : Chain) (r : StepResult) : Prop where
  /-- What it was to loop over is no array. -/
  | refused {v : Json} (hinput : r.input = .obj [("items", v)]) (hv : ∀ items, v ≠ .arr items)
      (hstatus : r.status = .failed) (houtput : r.output = .value .null)
  | ran {items : List Json} {summary : LoopSummary StepResult}
      (hinput : r.input = .obj [("items", .arr items)]) (houtput : r.output = .loop summary)
      (h : AddsUp body items r summary)

end Loop

/-- Every record of a loop in the report adds up, in whichever scope it stands. -/
def Job.Tallies (job : Job) (report : Report) : Prop :=
  ∀ path scope, Trace.scope? report.trace path = some scope →
    ∃ chain, job.flow.trigger.chain.inner? path = some chain ∧
      ∀ action ∈ chain.topLevel, ∀ settings body, action.work = .loop settings body →
        ∀ r, (action.label.name, r) ∈ scope → Loop.Tallied body r

/-! ### One iteration -/

namespace Account.Runs

variable {a : Account}

theorem completes {chain : Chain} (h : a.Runs chain.names) (hdone : a.completed = true) :
    chain.Completes a.entries := by
  generalize hnames : chain.names = names at h
  cases h with
  | whole hwhole hall =>
    exact ⟨hwhole.trans hnames.symm, fun e he => e.2.isFailed_eq_false_iff.mp (hall e he)⟩
  | stopped _ _ _ => contradiction

/-- The failed step of a chain that stopped early is the only one and the last one. -/
theorem filter_of_firstFailure? {names : List String} (h : a.Runs names)
    {e : String × StepResult} (he : Scope.firstFailure? a.entries = some e) :
    a.entries.filter (·.2.isFailed) = [e] ∧ a.entries.getLast? = some e := by
  obtain ⟨hmem, hfailed⟩ := Scope.mem_of_firstFailure? he
  have hlast := (h.getLast?_of_failed hmem hfailed).2
  refine ⟨?_, hlast⟩
  have hin : e ∈ a.entries.filter (·.2.isFailed) := List.mem_filter.mpr ⟨hmem, hfailed⟩
  obtain ⟨only, honly⟩ := List.length_eq_one_iff.mp
    (Nat.le_antisymm h.length_failed_le (List.length_pos_of_mem hin))
  rw [honly, List.mem_singleton] at hin
  rw [honly, hin]

end Account.Runs

/-! ### One loop -/

namespace Loop

/-- A loop comes to the end of its items, having completed its body for each, or it stops
in an iteration at the one step that failed there. -/
theorem Iterated.ends {body : Chain} {items : List Json} {failure : Option String}
    {scopes : List Scope} {calls : List (Call × Reply)}
    (h : Iterated (body.Leaves scene) items failure scopes calls) :
    (failure = none ∧ scopes.length = items.length ∧ ∀ scope ∈ scopes, body.Completes scope) ∨
    (scopes.length ≤ items.length ∧ ∃ earlier last e, scopes = earlier ++ [last] ∧
      last.filter (·.2.isFailed) = [e] ∧ last.getLast? = some e ∧ failure.isSome = true ∧
      e.2.message = failure ∧ ∀ scope ∈ earlier, body.Completes scope) := by
  induction h with
  | finished => exact .inl ⟨rfl, rfl, fun _ hscope => nomatch hscope⟩
  | completed ha hdone _ ih =>
    have hfirst := ha.runs.completes hdone
    rcases ih with ⟨hnone, hlength, hall⟩ | ⟨hlength, earlier, last, e, rfl, hrest⟩
    · exact .inl ⟨hnone, congrArg (· + 1) hlength, List.forall_mem_cons.mpr ⟨hfirst, hall⟩⟩
    · obtain ⟨hfilter, hlast, hsome, hmessage, hall⟩ := hrest
      exact .inr ⟨Nat.succ_le_succ hlength, _ :: earlier, last, e, rfl, hfilter, hlast, hsome,
        hmessage, List.forall_mem_cons.mpr ⟨hfirst, hall⟩⟩
  | @stopped item items a name r message ha _ hr hm =>
    obtain ⟨hfilter, hlast⟩ := ha.runs.filter_of_firstFailure? hr
    exact .inr ⟨Nat.succ_le_succ (Nat.zero_le _), [], a.entries, (name, r), rfl, hfilter, hlast,
      rfl, hm, fun _ hscope => nomatch hscope⟩

/-- Without a body, every iteration is empty and none stops the loop. -/
theorem Iterated.of_nil {items : List Json} {failure : Option String} {scopes : List Scope}
    {calls : List (Call × Reply)}
    (h : Iterated (Chain.Leaves scene .nil) items failure scopes calls) :
    failure = none ∧ scopes = List.replicate items.length [] := by
  induction h with
  | finished => exact ⟨rfl, rfl⟩
  | completed ha _ _ ih =>
    cases ha
    exact ⟨ih.1, congrArg ([] :: ·) ih.2⟩
  | stopped ha hdone _ _ =>
    cases ha
    contradiction

theorem currentItem_ofIterations {items : List Json} {scopes : List Scope}
    (h : scopes.length ≤ items.length) :
    (LoopSummary.ofIterations items scopes).currentItem =
      if scopes.length = 0 then none else items[scopes.length - 1]? := by
  have hitem : (LoopSummary.ofIterations items scopes).currentItem =
      (items.take scopes.length).getLast? := rfl
  rw [hitem, List.getLast?_take]
  by_cases hzero : scopes.length = 0
  · rw [if_pos hzero, if_pos hzero]
  · have hlt : scopes.length - 1 < items.length := by omega
    rw [if_neg hzero, if_neg hzero, List.getElem?_eq_getElem hlt, Option.some_or]

theorem status_ofLoop (input : Json) (summary : LoopSummary StepResult)
    (failure : Option String) : (StepResult.ofLoop input summary failure).status =
      if failure.isSome then .failed else .succeeded := by
  cases failure <;> rfl

/-- What a loop has run through adds up in its record. -/
theorem Iterated.addsUp {body : Chain} {items : List Json} {failure : Option String}
    {scopes : List Scope} {calls : List (Call × Reply)}
    (h : Iterated (body.Leaves scene) items failure scopes calls) (input : Json) :
    AddsUp body items (.ofLoop input (.ofIterations items scopes) failure)
      (.ofIterations items scopes) := by
  have hends := h.ends
  have hlength : scopes.length ≤ items.length := by
    rcases hends with ⟨-, hlength, -⟩ | ⟨hlength, -⟩
    · exact Nat.le_of_eq hlength
    · exact hlength
  refine ⟨hlength, ?_, currentItem_ofIterations hlength, ?_, ?_, ?_⟩
  · show max 1 scopes.length = if scopes.length = 0 then 1 else scopes.length
    split <;> omega
  · show _ ↔ scopes.length = items.length ∧ ∀ scope ∈ scopes, ∀ e ∈ scope, e.2.status ≠ .failed
    rw [status_ofLoop]
    rcases hends with ⟨rfl, hall, hcompletes⟩ | ⟨-, earlier, last, e, rfl, hfilter, -, hsome, -⟩
    · refine iff_of_true rfl ⟨hall, fun scope hscope e he => ?_⟩
      rw [(hcompletes scope hscope).2 e he]
      decide
    · have he : e ∈ last.filter (·.2.isFailed) := hfilter ▸ List.mem_singleton_self e
      obtain ⟨hmem, hfailed⟩ := List.mem_filter.mp he
      rw [if_pos hsome]
      refine iff_of_false nofun fun hnone => ?_
      exact hnone.2 last (by simp) e hmem (e.2.isFailed_iff.mp hfailed)
  · intro hfailed
    rw [status_ofLoop] at hfailed
    rw [StepResult.message_ofLoop]
    rcases hends with ⟨rfl, -, -⟩ | ⟨-, hstopped⟩
    · contradiction
    · exact hstopped
  · rintro rfl
    obtain ⟨rfl, hscopes⟩ := h.of_nil
    exact ⟨rfl, hscopes⟩

theorem Recorded.tallied {body : Chain} {calls : List (Call × Reply)} {r : StepResult}
    (h : Recorded (body.Leaves scene) calls r) : Tallied body r := by
  cases h with
  | refused hv => exact .refused rfl hv rfl rfl
  | @iterated items failure scopes _ h =>
    cases failure with
    | none => exact .ran rfl rfl (h.addsUp _)
    | some message => exact .ran rfl rfl (h.addsUp _)

end Loop

/-! ### All loops -/

/-- A record in what a step and its rest leave is that of the step or stands in the rest. -/
theorem Account.Begins.eq_or_mem {name : String} {calls : List (Call × Reply)} {r : StepResult}
    {allowed : Account → Prop} {a : Account} (h : Account.Begins name calls r allowed a)
    {e : String × StepResult} (he : e ∈ a.entries) :
    e = (name, r) ∨ ∃ b, allowed b ∧ e ∈ b.entries := by
  cases h with
  | failed _ => exact .inl (List.mem_singleton.mp he)
  | succeeded _ hb =>
    rcases List.mem_cons.mp he with he | he
    · exact .inl he
    · exact .inr ⟨_, hb, he⟩

theorem Chain.name_mem_names {chain : Chain} {action : Action} (h : action ∈ chain.topLevel) :
    action.label.name ∈ chain.names := List.mem_map_of_mem h

theorem Chain.Leaves.mem_names {chain : Chain} {a : Account} (h : chain.Leaves scene a)
    {e : String × StepResult} (he : e ∈ a.entries) : e.1 ∈ chain.names :=
  h.runs.names_prefix.subset (List.mem_map_of_mem he)

/-- The record under the name of a loop of the chain is one that the loop can leave. -/
theorem Chain.Leaves.recorded_of_mem : ∀ {chain : Chain} {a : Account}, chain.NamesApart →
    chain.Leaves scene a → ∀ {action : Action} {settings : LoopSettings} {body : Chain},
      action ∈ chain.topLevel → action.work = .loop settings body →
        ∀ {r : StepResult}, (action.label.name, r) ∈ a.entries →
          ∃ calls, Loop.Recorded (body.Leaves scene) calls r
  | .step label task rest, _, hapart, ⟨_, own, _, hbegins⟩, action, settings, body, haction,
      hwork, r, hr => by
    rcases List.mem_cons.mp haction with rfl | haction
    · contradiction
    rcases hbegins.eq_or_mem hr with heq | ⟨b, hb, hr⟩
    · have hname : action.label.name = label.name := congrArg Prod.fst heq
      exact absurd (hname ▸ name_mem_names haction) hapart.1
    · exact recorded_of_mem hapart.2 hb haction hwork hr
  | .loop label _ _ rest, _, hapart, ⟨calls, own, hrecorded, hbegins⟩, action, settings, body,
      haction, hwork, r, hr => by
    rcases List.mem_cons.mp haction with rfl | haction
    · cases hwork
      rcases hbegins.eq_or_mem hr with heq | ⟨b, hb, hr⟩
      · have hown : r = own := congrArg Prod.snd heq
        exact ⟨calls, hown ▸ hrecorded⟩
      · exact absurd (hb.mem_names hr) hapart.1
    · rcases hbegins.eq_or_mem hr with heq | ⟨b, hb, hr⟩
      · have hname : action.label.name = label.name := congrArg Prod.fst heq
        exact absurd (hname ▸ name_mem_names haction) hapart.1
      · exact recorded_of_mem hapart.2.2 hb haction hwork hr

namespace Job

variable {generated : String} {document : Json} {job : Job}

/-- **Loop records add up.** In the report of an accepted job, whoever answers the calls,
this is so for every loop at every depth. -/
theorem report_tallies (h : ofJson generated document = .ok job) (ex : Executors σ) (s : σ)
    (startedAt : Timestamp) (durationMs : Nat) :
    job.Tallies (job.report ex s startedAt durationMs).1 := by
  obtain ⟨a, hleaves, -, -, hreport⟩ := report_leaves h ex s startedAt durationMs
  rw [hreport]
  intro path scope hscope
  obtain ⟨chain, b, hinner, hb, hentries⟩ := scope_leaves h hleaves hscope
  refine ⟨chain, hinner, fun action haction settings body hwork r hr => ?_⟩
  have hapart := (namesApart h).of_inner? path hinner
  have hmem : (action.label.name, r) ∈ b.entries := by
    rcases hentries with rfl | ⟨rfl, rfl⟩
    · exact hr
    · have hname : triggerStep ≠ action.label.name := fun he =>
        trigger_not_mem h (Option.some.inj hinner ▸ he ▸ Chain.name_mem_names haction)
      exact (List.mem_cons.mp hr).resolve_left fun heq => hname (congrArg Prod.fst heq).symm
  obtain ⟨calls, hrecorded⟩ := hb.recorded_of_mem hapart haction hwork hmem
  exact hrecorded.tallied

theorem report_tallies_grid :
    ofJson "run-1" Grid.document = .ok (Grid.job "run-1") ∧
      (Grid.job "run-1").Tallies
        ((Grid.job "run-1").report Grid.script.executors ⟨[], []⟩ ⟨0, 0⟩ 0).1 :=
  ⟨Grid.accepted "run-1",
    report_tallies (Grid.accepted "run-1") Grid.script.executors ⟨[], []⟩ ⟨0, 0⟩ 0⟩

/-- The second row has stopped at the second of its three cells. -/
example :
    (Trace.loop? ((Grid.job "run-1").report Grid.script.executors ⟨[], []⟩ ⟨0, 0⟩ 0).1.trace
        [("rows", 1)] "cells").map
      (fun summary =>
        (summary.currentIteration, summary.currentItem, summary.iterations.length)) =
      some (2, some (.nat 3), 2) := by decide +kernel

end Job
end Stepwise

/-
# What a step sees of the loops around it

A step that looks from inside an iteration of a loop sees the loop's own record under the
loop's name, however many loops stand between them. The item there is the one of that
iteration, out of those that the loop's items resolved to when the loop looked; the number
is that of the iteration; and the iterations are those up to this one, all but the last of
them as the run leaves them in the end. While the step's own iteration goes on, nothing
that it calls and no loop further inside writes to that record, and a loop looks only once
in each scope, so the items are the same for all its iterations.

Key definitions: `Moment.part?`, `Moment.SeesLoop`, `Loop.Entered`, `Chain.SeesLoop`.
Key theorems: `Loop.ComesTo.completes`, `Chain.scope?_iteration`, `Chain.seesLoop_of_look`,
`Job.looks_once`, `Job.loops_seen`.
-/
import Mathlib.Data.List.Pairwise
import Stepwise.Proofs.Run.Sight
import Stepwise.Proofs.Run.Tally
import Stepwise.Proofs.Trace.Record

namespace Stepwise

variable {σ : Type} {scene : Scene} {ex : Executors σ}

/-- The part that the segments address of what a step sees under a name. -/
def Moment.part? (m : Moment) (name : String) (segments : List String) : Option Json :=
  (Trace.get? m.trace m.path name).bind (·.part? segments)

/-- What a step sees under the name of a loop from inside the iteration with the index. -/
structure Moment.SeesLoop (m : Moment) (name : String) (index : Nat) (items : List Json)
    (earlier : List Scope) : Prop where
  currentItem : ∀ segments,
    m.part? name ("currentItem" :: segments) = items[index]?.bind (·.at? segments)
  currentIteration : m.part? name ["currentIteration"] = some (.nat (index + 1))
  /-- The iterations before and the one under way. -/
  iterations : ∃ own, ∀ segments, m.part? name ("iterations" :: segments) =
    (Json.arr (earlier.map Trace.value ++ [own])).at? segments

/-- One of the loops among the actions looked at `start`, began to run over the items, and
came to the iteration with the index. In those before it the whole body succeeded, and what
they recorded is what the final trace has. -/
structure Loop.Entered (scene : Scene) (actions : List Action) (final : Trace) (start : Moment)
    (index : Nat) (items : List Json) (earlier : List Scope) : Prop where
  loop : ∃ action ∈ actions, ∃ settings body, action.label.name = start.name ∧
    action.work = .loop settings body ∧
    (scene.view start.path start.trace).resolve settings.items = .arr items ∧
    ∀ scope ∈ earlier, body.Completes scope
  index_lt : index < items.length
  length_eq : earlier.length = index
  final_eq : ∀ j < index,
    Trace.scope? final (start.path ++ [(start.name, j)]) = earlier[j]?

/-- Among the marks is the look of the loop before that of the step, and the step sees of
the loop what it should. -/
def Chain.SeesLoop (scene : Scene) (actions : List Action) (final : Trace) (marks : List Mark)
    (m : Moment) (outer : Path) (name : String) (index : Nat) : Prop :=
  ∃ start items earlier, [Mark.look start, .look m].Sublist marks ∧ start.path = outer ∧
    start.name = name ∧ Loop.Entered scene actions final start index items earlier ∧
      m.SeesLoop name index items earlier

/-! ### One iteration -/

/-- The record of a loop, read from inside an iteration that has just begun or goes on. -/
theorem Moment.seesLoop_of_get? {m : Moment} {name : String} {input item : Json}
    {items : List Json} {reached : LoopSummary StepResult} {added : Scope}
    (hget : Trace.get? m.trace m.path name =
      some (.ofLoop input (reached.extend item added) none))
    (hitem : items[reached.iterations.length]? = some item) :
    m.SeesLoop name reached.iterations.length items reached.iterations := by
  have hpart : ∀ segments, m.part? name segments = (reached.extend item added).part? segments := by
    intro segments
    rw [part?, hget]
    rfl
  refine ⟨fun segments => ?_, hpart _, Trace.value added, fun segments => ?_⟩
  · rw [hpart, hitem]
    rfl
  · rw [hpart]
    show (Json.arr (iterationsWritten (reached.iterations ++ [added]))).canonical.at? segments = _
    rw [canonical_iterationsWritten, List.map_append, List.map_singleton]

/-- A loop that comes to an item has completed its body for all items before it. -/
theorem Loop.ComesTo.completes {body : Chain} (hapart : body.NamesApart) {name : String}
    {input item : Json} {around : Surroundings} {scope : Scope} {items : List Json} {s s' : σ}
    {reached : LoopSummary StepResult}
    (h : ComesTo name input (body.evaluate scene ex) around scope .initial items s reached item
      s') :
    items[reached.iterations.length]? = some item ∧
      ∀ inner ∈ reached.iterations, body.Completes inner := by
  obtain ⟨before, after, rfl, hnone, rfl, rfl⟩ := h
  obtain ⟨scopes, hsummary, hiterated⟩ := evaluateItems_iterated
    (Chain.leaves_evaluate scene ex hapart)
    (fun around s => Chain.explains_evaluate scene ex around body [] s Scope.explained_nil)
    name input around scope before [] [] s rfl
  have hinitial : LoopSummary.ofIterations ([] ++ before) [] = .initial := rfl
  rw [hinitial] at hsummary hiterated
  have hscopes : (LoopSummary.ofIterations ([] ++ before) ([] ++ scopes)).iterations = scopes :=
    rfl
  rw [hsummary, hscopes]
  rcases hiterated.ends with ⟨-, hlength, hall⟩ | ⟨-, _, _, _, -, -, -, hsome, -⟩
  · refine ⟨?_, hall⟩
    rw [hlength, List.getElem?_append_right (Nat.le_refl _), Nat.sub_self]
    rfl
  · rw [hnone] at hsome
    contradiction

/-- From inside an iteration the record of the loop is what is found under its name. -/
theorem Chain.ShowsAt.get?_loop {body : Chain} {name : String} {input item : Json}
    {around : Surroundings} {scope : Scope} {reached : LoopSummary StepResult} {m : Moment}
    {below : Path} {added : Scope} (hname : name ∉ body.allNames)
    (h : body.ShowsAt (Loop.opened name input scope reached item :: around) [] m below added) :
    Trace.get? m.trace m.path name = some (.ofLoop input (reached.extend item added) none) := by
  have hinner := reached.inner?_extend name input item scope added
  have hadded : Named.get? added name = none := Named.get?_of_not_mem fun hmem =>
    hname (names_subset_allNames body (h.added_subset hmem))
  have hbelow : Trace.get? added below name = none := (h.holdsBelow.get?_eq hname).trans hadded
  have hpath : m.path = around.path ++ (name, reached.iterations.length) :: below := by
    rw [h.path_eq, Surroundings.path, List.append_assoc]
    rfl
  rw [h.trace_eq, hpath, List.nil_append, Surroundings.fill_opened, Surroundings.get?_fill_append,
    Trace.get?_cons hinner, hbelow, Option.none_or, Named.get?_put_self, Option.some_or]

namespace Chain

/-! ### What the final trace has of an iteration -/

theorem get?_evaluateRest {rest : Chain} (hapart : rest.NamesApart) {name : String}
    {e : StepEvaluation σ} {around : Surroundings} {scope : Scope}
    (hnew : name ∉ Named.names scope)
    (hafter : ∀ other ∈ rest.names, other ∉ Named.names (scope ++ [(name, e.result)])) :
    Named.get? (evaluateRest name e scope (rest.evaluate scene ex around)).scope name =
      some e.result := by
  cases hf : e.result.isFailed with
  | true =>
    rw [evaluateRest_of_failed hf]
    exact Named.get?_put_self ..
  | false =>
    obtain ⟨entries, hscope, -⟩ := evaluate_leaves scene ex rest around _ e.state hapart hafter
    have hput := Named.put_of_not_mem e.result hnew
    rw [evaluateRest_of_succeeded hf, hput]
    show Named.get? (rest.evaluate scene ex around _ e.state).scope name = _
    rw [hscope, Named.get?_append, ← hput, Named.get?_put_self, Option.some_or]

/-- Where the final trace has what a chain leaves, it has the iterations of its loop. -/
theorem scope?_iteration {rest : Chain} (hapart : rest.NamesApart) {name : String}
    {body : Surroundings → Scope → σ → Evaluation σ} {around : Surroundings} {scope : Scope}
    {items : List Json} {s : σ} {final : Trace} (hnew : name ∉ Named.names scope)
    (hafter : ∀ r, ∀ other ∈ rest.names, other ∉ Named.names (scope ++ [(name, r)]))
    (hfinal : Trace.scope? final around.path = some (evaluateRest name
      (Loop.evaluate name body around scope (.arr items) s) scope
        (rest.evaluate scene ex around)).scope) (j : Nat) :
    Trace.scope? final (around.path ++ [(name, j)]) =
      (Loop.evaluateItems name (.obj [("items", .arr items)]) body around scope .initial items
        s).summary.iterations[j]? := by
  rw [Trace.scope?_append, hfinal, Option.bind_some, Trace.scope?_singleton, Scope.inner?,
    get?_evaluateRest hapart hnew (hafter _), Option.bind_some]
  simp only [Loop.evaluate, StepResult.loop?_ofLoop, Option.bind_some]

/-! ### All iterations -/

variable {actions : List Action} {final : Trace}

theorem SeesLoop.mono {marks more : List Mark} {m : Moment} {outer : Path} {name : String}
    {index : Nat} (h : SeesLoop scene actions final marks m outer name index)
    (hmarks : marks.Sublist more) : SeesLoop scene actions final more m outer name index := by
  obtain ⟨start, items, earlier, hlooks, hrest⟩ := h
  exact ⟨start, items, earlier, hlooks.trans hmarks, hrest⟩

/-- What the body of a loop shows in an iteration. -/
theorem entered_of_comesTo {label : Label} {settings : LoopSettings} {body : Chain}
    {next : Option String} {around : Surroundings} {scope : Scope} {s s' : σ} {items : List Json}
    {reached : LoopSummary StepResult} {item : Json} (hapart : body.NamesApart)
    (haction : ⟨label, .loop settings body, next⟩ ∈ actions)
    (hitems : (scene.viewIn around scope).resolve settings.items = .arr items)
    (hcomes : Loop.ComesTo label.name (.obj [("items", .arr items)]) (body.evaluate scene ex)
      around scope .initial items s reached item s')
    (hfinal : ∀ j, Trace.scope? final (around.path ++ [(label.name, j)]) =
      (Loop.evaluateItems label.name (.obj [("items", .arr items)]) (body.evaluate scene ex)
        around scope .initial items s).summary.iterations[j]?) :
    Loop.Entered scene actions final ⟨around.path, label.name, around.fill scope⟩
      reached.iterations.length items reached.iterations := by
  obtain ⟨hitem, hcompletes⟩ := hcomes.completes hapart
  obtain ⟨hlt, -⟩ := List.getElem?_eq_some_iff.mp hitem
  refine ⟨⟨_, haction, settings, body, rfl, rfl, ?_, hcompletes⟩, hlt, rfl, fun j hj => ?_⟩
  · rw [scene.resolve_viewIn]
    exact hitems
  · obtain ⟨more, hmore⟩ := hcomes.isPrefix
    rw [hfinal, ← hmore, List.append_assoc, List.getElem?_append_left hj]

theorem scope?_of_comesTo {body : Surroundings → Scope → σ → Evaluation σ} {name : String}
    {input item : Json} {around : Surroundings} {scope : Scope} {s s' : σ} {items : List Json}
    {reached : LoopSummary StepResult}
    (hcomes : Loop.ComesTo name input body around scope .initial items s reached item s')
    (hfinal : ∀ j, Trace.scope? final (around.path ++ [(name, j)]) =
      (Loop.evaluateItems name input body around scope .initial items s).summary.iterations[j]?) :
    let inside := Loop.opened name input scope reached item :: around
    Trace.scope? final (Surroundings.path inside) = some (body inside [] s').scope := by
  obtain ⟨more, hmore⟩ := hcomes.isPrefix
  show Trace.scope? final (around.path ++ [(name, reached.iterations.length)]) = _
  rw [hfinal, ← hmore, List.append_assoc, List.getElem?_append_right (Nat.le_refl _),
    Nat.sub_self]
  rfl

/-- A step after another one in its chain sees what the rest of the chain shows. -/
theorem seesLoop_of_mem_rest {rest : Chain} {name : String} {e : StepEvaluation σ}
    {around : Surroundings} {scope : Scope} {m : Moment} {outer : Path} {loop : String}
    {index : Nat} (hnew : name ∉ Named.names scope)
    (hfinal : Trace.scope? final around.path =
      some (evaluateRest name e scope (rest.evaluate scene ex around)).scope)
    (h : Trace.scope? final around.path =
        some (rest.evaluate scene ex around (scope ++ [(name, e.result)]) e.state).scope →
      .look m ∈ rest.chronicle scene ex around (scope ++ [(name, e.result)]) e.state →
        SeesLoop scene actions final
          (rest.chronicle scene ex around (scope ++ [(name, e.result)]) e.state) m outer loop
            index)
    (hmark : .look m ∈ chronicleRest name e around scope (rest.chronicle scene ex around)) :
    SeesLoop scene actions final
      (chronicleRest name e around scope (rest.chronicle scene ex around)) m outer loop index := by
  have hput := Named.put_of_not_mem e.result hnew
  rcases eq_record_or_mem hnew hmark with hrecord | ⟨hsucceeded, hmark⟩
  · contradiction
  · rw [evaluateRest_of_succeeded hsucceeded, hput] at hfinal
    refine (h hfinal hmark).mono ?_
    rw [chronicleRest, hput, hsucceeded]
    exact List.sublist_cons_self ..

/-- A step inside of a loop sees the loop, and those further inside as the body shows them.
The path to the step says which: it begins with an iteration of the loop. -/
theorem seesLoop_of_mem_loop {label : Label} {settings : LoopSettings} {body : Chain}
    {next : Option String} {around : Surroundings} {scope : Scope} {s : σ} {items : List Json}
    {m : Moment} {outer : Path} {name : String} {index : Nat} {below : Path}
    (hname : label.name ∉ body.allNames) (hapart : body.NamesApart)
    (haction : ⟨label, .loop settings body, next⟩ ∈ actions)
    (hitems : (scene.viewIn around scope).resolve settings.items = .arr items)
    (hfinal : ∀ j, Trace.scope? final (around.path ++ [(label.name, j)]) =
      (Loop.evaluateItems label.name (.obj [("items", .arr items)]) (body.evaluate scene ex)
        around scope .initial items s).summary.iterations[j]?)
    (hbody : ∀ (around : Surroundings) (s : σ) (outer : Path),
      Trace.scope? final around.path = some (body.evaluate scene ex around [] s).scope →
        .look m ∈ body.chronicle scene ex around [] s →
          m.path = around.path ++ (outer ++ (name, index) :: below) →
            SeesLoop scene actions final (body.chronicle scene ex around [] s) m
              (around.path ++ outer) name index)
    (hmark : .look m ∈ Loop.chronicle label.name (body.evaluate scene ex)
      (body.chronicle scene ex) around scope (.arr items) s)
    (hpath : m.path = around.path ++ (outer ++ (name, index) :: below)) :
    SeesLoop scene actions final
      (.look ⟨around.path, label.name, around.fill scope⟩ ::
        Loop.chronicle label.name (body.evaluate scene ex) (body.chronicle scene ex) around scope
          (.arr items) s) m (around.path ++ outer) name index := by
  obtain ⟨_, hsame, reached, item, s', hcomes, hmark, hinside⟩ := exists_of_mem_loop hmark
  cases hsame
  obtain ⟨under, added, hshows⟩ := shows_of_mem hapart (new_in_empty body) hmark rfl
  have hframes : (label.name, reached.iterations.length) :: under =
      outer ++ (name, index) :: below := by
    have htwice := hshows.path_eq.symm.trans hpath
    rw [Surroundings.path, List.append_assoc] at htwice
    exact List.append_cancel_left htwice
  -- The path to the step begins with an iteration of this loop: either that is the one asked
  -- for, or the one asked for is further inside, where the body has it.
  cases outer with
  | nil =>
    obtain ⟨hframe, -⟩ := List.cons.inj hframes
    cases hframe
    have hlooks := (List.singleton_sublist.mpr (hinside.subset hmark)).cons_cons
      (.look ⟨around.path, label.name, around.fill scope⟩)
    exact ⟨⟨around.path, label.name, around.fill scope⟩, items, reached.iterations, hlooks,
      (List.append_nil _).symm, rfl, entered_of_comesTo hapart haction hitems hcomes hfinal,
      Moment.seesLoop_of_get? (hshows.get?_loop hname) (hcomes.completes hapart).1⟩
  | cons frame outer =>
    obtain ⟨rfl, hunder⟩ := List.cons.inj hframes
    have hbelow := hshows.path_eq
    rw [hunder] at hbelow
    have hsees := hbody _ s' outer (scope?_of_comesTo hcomes hfinal) hmark hbelow
    rw [Surroundings.path, List.append_assoc] at hsees
    exact hsees.mono (hinside.trans (List.sublist_cons_self ..))

/-- **Every step sees the loops around it.** The induction is on the chain. -/
theorem seesLoop_of_look : ∀ {chain : Chain} {around : Surroundings} {scope : Scope} {s : σ},
    chain.allNames.Nodup → (∀ name ∈ chain.names, name ∉ Named.names scope) →
      chain.walk ⊆ actions →
        Trace.scope? final around.path = some (chain.evaluate scene ex around scope s).scope →
          ∀ {m : Moment} {outer : Path} {name : String} {index : Nat} {below : Path},
            .look m ∈ chain.chronicle scene ex around scope s →
              m.path = around.path ++ (outer ++ (name, index) :: below) →
                SeesLoop scene actions final (chain.chronicle scene ex around scope s) m
                  (around.path ++ outer) name index
  | .step label task rest, around, scope, s, hnodup, hnew, hwalk, hfinal, m, outer, name, index,
      below, hmark, hpath => by
    have hapart := namesApart_of_nodup hnodup
    rw [allNames_step, List.nodup_cons] at hnodup
    obtain ⟨hlabel, hrest⟩ := List.forall_mem_cons.mp hnew
    rcases List.mem_cons.mp hmark with hlook | hmark
    · cases hlook
      simp at hpath
    rcases List.mem_append.mp hmark with hmark | hmark
    · have hnone := Mark.moment?_of_mem_ofCalls hmark
      contradiction
    · refine (seesLoop_of_mem_rest hlabel hfinal (fun hfinal hmark => ?_) hmark).mono
        ((List.sublist_append_right ..).trans (List.sublist_cons_self ..))
      exact seesLoop_of_look hnodup.2 (evaluate_leaves.new_after hapart.1 hrest)
        (List.subset_of_cons_subset hwalk) hfinal hmark hpath
  | .loop label settings body rest, around, scope, s, hnodup, hnew, hwalk, hfinal, m, outer,
      name, index, below, hmark, hpath => by
    have hapart := namesApart_of_nodup hnodup
    rw [allNames_loop, List.nodup_cons, List.nodup_append] at hnodup
    obtain ⟨hlabel, hrest⟩ := List.forall_mem_cons.mp hnew
    have hafter := fun r => evaluate_leaves.new_after (r := r) hapart.1 hrest
    have hinside := List.subset_of_cons_subset hwalk
    rcases List.mem_cons.mp hmark with hlook | hmark
    · cases hlook
      simp at hpath
    rcases List.mem_append.mp hmark with hmark | hmark
    · obtain ⟨items, hitems, -⟩ := exists_of_mem_loop hmark
      have hname : label.name ∉ body.allNames := fun hmem =>
        hnodup.1 (List.mem_append_left _ hmem)
      rw [evaluate, hitems] at hfinal
      rw [hitems] at hmark
      rw [chronicle, hitems]
      refine (seesLoop_of_mem_loop hname hapart.2.1 (hwalk List.mem_cons_self) hitems
        (scope?_iteration hapart.2.2 hlabel hafter hfinal)
        (fun around s outer hfinal hmark hpath => ?_) hmark hpath).mono
          ((List.sublist_append_left ..).cons_cons _)
      exact seesLoop_of_look hnodup.2.1 (new_in_empty body)
        (List.Subset.trans (List.subset_append_left ..) hinside) hfinal hmark hpath
    · refine (seesLoop_of_mem_rest hlabel hfinal (fun hfinal hmark => ?_) hmark).mono
        ((List.sublist_append_right ..).trans (List.sublist_cons_self ..))
      exact seesLoop_of_look hnodup.2.2.1 (hafter _)
        (List.Subset.trans (List.subset_append_right ..) hinside) hfinal hmark hpath

end Chain

/-! ### A run -/

/-- Events of which not both are looks of one step from one scope. -/
def Event.Differ (first second : Event) : Prop :=
  ∀ m m', first = .look m → second = .look m' → m.path = m'.path → m.name ≠ m'.name

/-- Whether the event is a look from the scope at the path. -/
def Event.looksFrom (path : Path) : Event → Bool
  | .look m => m.path = path
  | .call _ _ => false

theorem Event.exists_of_looksFrom {event : Event} {path : Path}
    (h : event.looksFrom path = true) : ∃ m, event = .look m ∧ m.path = path := by
  cases event with
  | look m => exact ⟨m, rfl, of_decide_eq_true h⟩
  | call c r => exact absurd h Bool.false_ne_true

instance : Std.Symm Event.Differ :=
  ⟨fun _ _ h m m' hm hm' hpath hname => h m' m hm' hm hpath.symm hname.symm⟩

/-- That looks differ can be told from where they are. -/
theorem Mark.positional_differ : Mark.Positional fun first second =>
    ∀ m m', first = .look m → second = .look m' → m.path = m'.path → m.name ≠ m'.name where
  apart := by
    rintro _ _ hapart m m' rfl rfl hpath
    exact absurd (hpath ▸ List.prefix_rfl) (hapart m m' rfl rfl)
  look := by
    intro m b hlook m' other hm hother hpath
    cases hm
    exact (hlook other hother hpath.symm).symm
  record := by
    intro rest around scope name r b _ _ _ m m' hrecord
    contradiction

namespace Job

variable {generated : String} {document : Json} {job : Job}

theorem look_mem_trail {ex : Executors σ} {s : σ} {m : Moment} :
    .look m ∈ job.process.trail ex s ↔ Mark.look m ∈ job.flow.trigger.chain.chronicle job.scene
      ex [] [(triggerStep, job.seed)] s := by
  rw [trail_eq_history, history_eq_chronicle, List.filterMap_cons_none rfl, List.mem_filterMap]
  constructor
  · rintro ⟨mark, hmark, hevent⟩
    rw [Mark.eq_look_of_event? hevent] at hmark
    exact hmark
  · exact fun hmark => ⟨_, hmark, rfl⟩

/-- A step looks only once from each scope. -/
theorem looks_once (h : ofJson generated document = .ok job) (ex : Executors σ) (s : σ) :
    (job.process.trail ex s).Pairwise Event.Differ := by
  have hnodup : job.flow.trigger.chain.allNames.Nodup := (usableNames_of_ofJson h).nodup
  have hchain : (job.flow.trigger.chain.chronicle job.scene ex []
      [(triggerStep, job.seed)] s).Pairwise _ :=
    Chain.pairwise_chronicle Mark.positional_differ _ [] _ s hnodup (names_new h)
  rw [trail_eq_history, history_eq_chronicle, List.filterMap_cons_none rfl,
    List.pairwise_filterMap]
  refine hchain.imp fun hdiffer first hfirst second hsecond m m' hm hm' => ?_
  subst hm hm'
  exact hdiffer m m' (Mark.eq_look_of_event? hfirst) (Mark.eq_look_of_event? hsecond)

/-- In the trail of a run the loop looks before the step does, and only once from the scope
at `outer`; and the step sees of the loop what it should. -/
def SeesLoop (job : Job) (trail : List Event) (final : Trace) (m : Moment) (outer : Path)
    (name : String) (index : Nat) : Prop :=
  ∃ start items earlier, [Event.look start, .look m].Sublist trail ∧ start.path = outer ∧
    start.name = name ∧
    (∀ other, .look other ∈ trail → other.path = outer → other.name = name → other = start) ∧
    Loop.Entered job.scene job.flow.actions final start index items earlier ∧
    m.SeesLoop name index items earlier

/-- **Every step sees the loops around it as they are**, through whichever of their
iterations the path to the step leads. -/
theorem loops_seen (h : ofJson generated document = .ok job) (ex : Executors σ) (s : σ)
    (startedAt : Timestamp) (durationMs : Nat) :
    ∀ m, .look m ∈ job.process.trail ex s → ∀ outer name index rest,
      m.path = outer ++ (name, index) :: rest →
        job.SeesLoop (job.process.trail ex s) (job.report ex s startedAt durationMs).1.trace m
          outer name index := by
  intro m hlook outer name index rest hpath
  have hnodup : job.flow.trigger.chain.allNames.Nodup := (usableNames_of_ofJson h).nodup
  have hfinal : Trace.scope? (job.report ex s startedAt durationMs).1.trace
      (Surroundings.path []) = some (job.flow.trigger.chain.evaluate job.scene ex []
        [(triggerStep, job.seed)] s).scope := by
    obtain ⟨hrun, -⟩ := Chain.run_eq_evaluate job.scene ex job.flow.trigger.chain []
      [(triggerStep, job.seed)] s
    exact congrArg (fun r => some r.1.2) hrun
  obtain ⟨start, items, earlier, hlooks, hstart, hname, hentered, hsees⟩ :=
    Chain.seesLoop_of_look hnodup (names_new h) (List.Subset.refl _) hfinal
      (look_mem_trail.mp hlook) hpath
  have hsublist : [.look start, .look m].Sublist (job.process.trail ex s) := by
    rw [trail_eq_history, history_eq_chronicle]
    exact (hlooks.cons _).filterMap Mark.event?
  have hbegan : .look start ∈ job.process.trail ex s := hsublist.subset List.mem_cons_self
  refine ⟨start, items, earlier, hsublist, hstart, hname, fun other hother hpath hname' => ?_,
    hentered, hsees⟩
  -- Another look of the loop from the same scope would be a second one.
  by_contra hne
  have hdiffer := (looks_once h ex s).forall hother hbegan fun heq => hne (Event.look.inj heq)
  exact hdiffer other start rfl rfl (hpath.trans hstart.symm) (hname'.trans hname.symm)

theorem loops_seen_grid :
    ofJson "run-1" Grid.document = .ok (Grid.job "run-1") ∧
      let trail := (Grid.job "run-1").process.trail Grid.script.executors ⟨[], []⟩
      let final :=
        ((Grid.job "run-1").report Grid.script.executors ⟨[], []⟩ ⟨0, 0⟩ 0).1.trace
      ∃ m, .look m ∈ trail ∧ m.path = [("rows", 1), ("cells", 1)] ∧
        (Grid.job "run-1").SeesLoop trail final m [] "rows" 1 ∧
          (Grid.job "run-1").SeesLoop trail final m [("rows", 1)] "cells" 1 := by
  have hany : ((Grid.job "run-1").process.trail Grid.script.executors ⟨[], []⟩).any
      (Event.looksFrom [("rows", 1), ("cells", 1)]) = true := by decide +kernel
  obtain ⟨event, hevent, hlooks⟩ := List.any_eq_true.mp hany
  obtain ⟨m, rfl, hpath⟩ := Event.exists_of_looksFrom hlooks
  have hsees := loops_seen (Grid.accepted "run-1") Grid.script.executors ⟨[], []⟩ ⟨0, 0⟩ 0 m
    hevent
  exact ⟨Grid.accepted "run-1", m, hevent, hpath, hsees [] "rows" 1 [("cells", 1)] hpath,
    hsees [("rows", 1)] "cells" 1 [] hpath⟩

end Job
end Stepwise

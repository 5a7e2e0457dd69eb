/-
# What a run leaves alone

A chain that runs at a path writes to the scope there and to nothing else, whatever stands in
the trace before: names may repeat, and steps of these names may have been recorded. In its
scope it removes nothing. Every entry stays where it is, and only those are replaced under
whose names something is recorded; new names come behind the old ones, in the order in which
they were first recorded. Outside of the scope everything is as it was.

At a path that leads to no scope the first action is done, which makes one call at most, and
nothing is recorded.

Key definitions: `Named.putAll`, `Trace.AlikeOutside`, `Mark.recordAt?`, `Scope.GrowsBy`,
`Chain.firstTask`.

Key theorems: `Named.names_putAll`, `Trace.alikeOutside_of_modify`,
`Chain.scope_evaluate`, `Chain.run_of_no_scope`, `Chain.run_frame`.
-/
import Stepwise.Proofs.Run.Sight
import Stepwise.Proofs.Trace.Update

namespace Stepwise

variable {σ : Type}

/-! ### Entries set one after the other -/

namespace Named

variable {α : Type}

/-- Sets entries one after the other. -/
def putAll (entries : Named α) (more : List (String × α)) : Named α :=
  more.foldl (fun found e => put e.1 e.2 found) entries

@[simp] theorem putAll_nil (entries : Named α) : putAll entries [] = entries := rfl

@[simp] theorem putAll_cons (entries : Named α) (e : String × α) (more : List (String × α)) :
    putAll entries (e :: more) = putAll (put e.1 e.2 entries) more := rfl

/-- An entry keeps its position, and if another name is set its value. -/
theorem getElem?_put (name : String) {other : String} {a : α} (b : α) :
    ∀ {entries : Named α} {i : Nat}, entries[i]? = some (other, a) →
      ∃ c, (put name b entries)[i]? = some (other, c) ∧ (other ≠ name → c = a)
  | (n, d) :: rest, i, h => by
    by_cases hn : n = name
    · rw [put, if_pos hn]
      cases i with
      | zero =>
        cases h
        exact ⟨b, rfl, fun hne => absurd hn hne⟩
      | succ i => exact ⟨a, h, fun _ => rfl⟩
    · rw [put, if_neg hn]
      cases i with
      | zero => exact ⟨a, h, fun _ => rfl⟩
      | succ i =>
        have h : rest[i]? = some (other, a) := h
        exact getElem?_put name b h

theorem getElem?_putAll {other : String} : ∀ (more : List (String × α)) {entries : Named α}
    {a : α} {i : Nat}, entries[i]? = some (other, a) →
      ∃ c, (putAll entries more)[i]? = some (other, c) ∧ (other ∉ names more → c = a)
  | [], _, a, _, h => ⟨a, h, fun _ => rfl⟩
  | (name, b) :: more, entries, a, i, h => by
    obtain ⟨c, hc, hput⟩ := getElem?_put name b h
    obtain ⟨d, hd, hrest⟩ := getElem?_putAll more hc
    refine ⟨d, hd, fun hnot => ?_⟩
    obtain ⟨hne, hnot⟩ := List.ne_and_not_mem_of_not_mem_cons hnot
    rw [hrest hnot, hput hne]

/-- New names come behind the old ones, each where it was first set. -/
theorem names_putAll : ∀ (more : List (String × α)) (entries : Named α),
    names (putAll entries more) =
      names entries ++ ((names more).filter (· ∉ names entries)).eraseDups
  | [], entries => (List.append_nil _).symm
  | (name, a) :: more, entries => by
    have hcons : names ((name, a) :: more) = name :: names more := rfl
    rw [putAll_cons, names_putAll more, names_put, hcons, List.filter_cons]
    by_cases hname : name ∈ names entries
    · simp [hname]
    · have hfilter : (names more).filter (· ∉ names entries ++ [name]) =
          ((names more).filter (· ∉ names entries)).filter (fun other => !other == name) := by
        rw [List.filter_filter]
        refine List.filter_congr fun other _ => ?_
        by_cases hother : other = name <;> simp [hother]
      simp only [hname, if_false, not_false_eq_true, decide_true, if_true, hfilter,
        List.eraseDups_cons, List.append_assoc, List.singleton_append]

/-- Where a name is found, and the entry that is set there. -/
theorem exists_split {name : String} {a : α} : ∀ {entries : Named α},
    get? entries name = some a → ∃ before after, entries = before ++ (name, a) :: after ∧
      name ∉ names before ∧ ∀ b, put name b entries = before ++ (name, b) :: after
  | (n, c) :: rest, h => by
    by_cases hn : n = name
    · rw [get?, if_pos hn, Option.some.injEq] at h
      subst hn h
      exact ⟨[], rest, rfl, List.not_mem_nil, fun b => by rw [put, if_pos rfl]; rfl⟩
    · rw [get?, if_neg hn] at h
      obtain ⟨before, after, rfl, hbefore, hput⟩ := exists_split h
      refine ⟨(n, c) :: before, after, rfl, ?_, fun b => ?_⟩
      · exact List.not_mem_cons_of_ne_of_not_mem (Ne.symm hn) hbefore
      · rw [put, if_neg hn, hput]
        rfl

end Named

/-! ### Outside of a scope -/

namespace Trace

/-- Two scopes that agree except in the scope that a path leads to: entry by entry, in the
record of the loop that the path goes through iteration by iteration, and so on in the
iteration of the path. -/
inductive AlikeOutside : Path → Scope → Scope → Prop where
  | here (s s' : Scope) : AlikeOutside [] s s'
  | inside {name : String} {rest : Path} {before after : Scope} {r : StepResult}
      {summary : LoopSummary StepResult} {earlier later : List Scope} {inner inner' : Scope}
      (hname : name ∉ Named.names before) (hl : r.loop? = some summary)
      (hiterations : summary.iterations = earlier ++ inner :: later)
      (h : AlikeOutside rest inner inner') :
    AlikeOutside ((name, earlier.length) :: rest) (before ++ (name, r) :: after)
      (before ++ (name, r.withLoop { summary with iterations := earlier ++ inner' :: later }) ::
        after)

/-- A change in the scope that a path leads to is one there only. -/
theorem alikeOutside_of_modify {f : Scope → Scope} : ∀ {path : Path} {t t' : Scope},
    modify t path f = some t' → AlikeOutside path t t'
  | [], t, t', _ => .here t t'
  | (name, index) :: rest, t, t', h => by
    obtain ⟨inner, inner', hinner, hmodify, rfl⟩ := exists_of_modify_cons h
    obtain ⟨r, summary, hr, hl, hi⟩ := Scope.inner?_eq_some.mp hinner
    obtain ⟨hlt, hget⟩ := List.getElem?_eq_some_iff.mp hi
    obtain ⟨before, after, ht, hbefore, hput⟩ := Named.exists_split hr
    have hiterations : summary.iterations =
        summary.iterations.take index ++ inner :: summary.iterations.drop (index + 1) := by
      rw [← hget, List.getElem_cons_drop, List.take_append_drop]
    have hlength : (summary.iterations.take index).length = index :=
      List.length_take_of_le (Nat.le_of_lt hlt)
    have hinside : AlikeOutside ((name, (summary.iterations.take index).length) :: rest)
        (before ++ (name, r) :: after) _ :=
      .inside hbefore hl hiterations (alikeOutside_of_modify hmodify)
    rw [hlength] at hinside
    rw [Scope.setInner_eq hr hl, hput, List.set_eq_take_append_cons_drop, if_pos hlt]
    exact ht ▸ hinside

/-- Where there is no scope, nothing can be changed. -/
theorem modify_of_no_scope {f : Scope → Scope} {path : Path} {t : Scope}
    (h : scope? t path = none) : modify t path f = none := by
  rw [← Option.not_isSome_iff_eq_none, isSome_modify, h]
  exact Bool.false_ne_true

end Trace

/-! ### What is recorded in a scope -/

/-- What a mark records in the scope that a path leads to. -/
def Mark.recordAt? (path : Path) : Mark → Option (String × StepResult)
  | .record e => if e.path = path then some (e.name, e.result) else none
  | _ => none

theorem Mark.recordAt?_of_ne {path : Path} {mark : Mark}
    (h : ∀ m, mark.moment? = some m → m.path ≠ path) : mark.recordAt? path = none := by
  cases mark with
  | record e => exact if_neg (h _ rfl)
  | look m => rfl
  | call c r => rfl

namespace Chain

variable (scene : Scene) (ex : Executors σ)

/-- Whatever happens while a chain runs happens where it runs or further inside. -/
theorem isPrefix_of_mem_chronicle {mark : Mark} {m : Moment} (hm : mark.moment? = some m) :
    ∀ {chain : Chain} {around : Surroundings} {scope : Scope} {s : σ},
      mark ∈ chain.chronicle scene ex around scope s → around.path <+: m.path
  | .step label task rest, around, scope, s, hmark => by
    rcases List.mem_cons.mp hmark with rfl | hmark
    · cases hm
      exact List.prefix_rfl
    rcases List.mem_append.mp hmark with hmark | hmark
    · rw [Mark.moment?_of_mem_ofCalls hmark] at hm
      contradiction
    · exact of_mem_rest hm (fun _ _ => isPrefix_of_mem_chronicle hm) hmark
  | .loop label settings body rest, around, scope, s, hmark => by
    rcases List.mem_cons.mp hmark with rfl | hmark
    · cases hm
      exact List.prefix_rfl
    rcases List.mem_append.mp hmark with hmark | hmark
    · obtain ⟨items, -, reached, item, s', -, hmark, -⟩ := exists_of_mem_loop hmark
      exact (List.prefix_append _ _).trans (isPrefix_of_mem_chronicle hm hmark)
    · exact of_mem_rest hm (fun _ _ => isPrefix_of_mem_chronicle hm) hmark
where
  of_mem_rest {mark : Mark} {m : Moment} (hm : mark.moment? = some m) {name : String}
      {e : StepEvaluation σ} {around : Surroundings} {scope : Scope}
      {rest : Scope → σ → List Mark}
      (h : ∀ scope s, mark ∈ rest scope s → around.path <+: m.path)
      (hmark : mark ∈ chronicleRest name e around scope rest) : around.path <+: m.path := by
    rcases List.mem_cons.mp hmark with rfl | hmark
    · cases hm
      exact List.prefix_rfl
    · split at hmark
      · contradiction
      · exact h _ _ hmark

/-- What a chain records in the scope in which it runs, in order. -/
def recorded (chain : Chain) (around : Surroundings) (scope : Scope) (s : σ) :
    List (String × StepResult) :=
  (chain.chronicle scene ex around scope s).filterMap (Mark.recordAt? around.path)

/-- Nothing that happens in a loop is recorded in the scope of the loop. -/
theorem recordAt?_of_mem_loop {body : Chain} {name : String} {around : Surroundings}
    {scope : Scope} {resolved : Json} {s : σ} {mark : Mark}
    (h : mark ∈ Loop.chronicle name (body.evaluate scene ex) (body.chronicle scene ex) around
      scope resolved s) : mark.recordAt? around.path = none := by
  refine Mark.recordAt?_of_ne fun m hm heq => ?_
  obtain ⟨items, -, reached, item, s', -, hmark, -⟩ := exists_of_mem_loop h
  have hprefix := isPrefix_of_mem_chronicle scene ex hm hmark
  rw [heq] at hprefix
  exact not_isPrefix_self _ _ hprefix

/-- One record, and those of the rest unless the step failed. -/
theorem recorded_link {rest : Chain} {name : String} {e : StepEvaluation σ}
    {around : Surroundings} {scope : Scope} {inside : List Mark}
    (h : ∀ mark ∈ inside, mark.recordAt? around.path = none) :
    (Mark.look ⟨around.path, name, around.fill scope⟩ ::
        (inside ++ chronicleRest name e around scope
          (rest.chronicle scene ex around))).filterMap (Mark.recordAt? around.path) =
      (name, e.result) :: if e.result.isFailed then []
        else rest.recorded scene ex around (Named.put name e.result scope) e.state := by
  have hinside : inside.filterMap (Mark.recordAt? around.path) = [] :=
    List.filterMap_eq_nil_iff.mpr h
  have hrecord : (Mark.record ⟨around.path, name, e.result,
      around.fill (Named.put name e.result scope)⟩).recordAt? around.path =
        some (name, e.result) := if_pos rfl
  have hlook : (Mark.look ⟨around.path, name, around.fill scope⟩).recordAt? around.path = none :=
    rfl
  rw [List.filterMap_cons_none hlook, List.filterMap_append, hinside, List.nil_append,
    chronicleRest, List.filterMap_cons_some hrecord]
  cases e.result.isFailed <;> rfl

theorem recorded_step (label : Label) (task : Task) (rest : Chain) (around : Surroundings)
    (scope : Scope) (s : σ) :
    let e := task.evaluate scene ex around scope s
    (step label task rest).recorded scene ex around scope s =
      (label.name, e.result) :: if e.result.isFailed then []
        else rest.recorded scene ex around (Named.put label.name e.result scope) e.state :=
  recorded_link scene ex fun _ hmark =>
    Mark.recordAt?_of_ne fun _ hm => by simp [Mark.moment?_of_mem_ofCalls hmark] at hm

theorem recorded_loop (label : Label) (settings : LoopSettings) (body rest : Chain)
    (around : Surroundings) (scope : Scope) (s : σ) :
    let e := Loop.evaluate label.name (body.evaluate scene ex) around scope
      ((scene.viewIn around scope).resolve settings.items) s
    (loop label settings body rest).recorded scene ex around scope s =
      (label.name, e.result) :: if e.result.isFailed then []
        else rest.recorded scene ex around (Named.put label.name e.result scope) e.state :=
  recorded_link scene ex fun _ => recordAt?_of_mem_loop scene ex

/-- A chain records under the names of its first actions. -/
theorem names_recorded_isPrefix : ∀ (chain : Chain) (around : Surroundings) (scope : Scope)
    (s : σ), Named.names (chain.recorded scene ex around scope s) <+: chain.names
  | .nil, _, _, _ => List.nil_prefix
  | .step label task rest, around, scope, s => by
    rw [recorded_step, names_step]
    exact link (names_recorded_isPrefix rest around _ _)
  | .loop label settings body rest, around, scope, s => by
    rw [recorded_loop, names_loop]
    exact link (names_recorded_isPrefix rest around _ _)
where
  link {name : String} {r : StepResult} {more : List (String × StepResult)}
      {names : List String} (h : Named.names more <+: names) :
      Named.names ((name, r) :: if r.isFailed then [] else more) <+: name :: names := by
    refine List.cons_prefix_cons.mpr ⟨rfl, ?_⟩
    split
    · exact List.nil_prefix
    · exact h

/-- The scope of a chain after it is the scope before with what is recorded set there. -/
theorem scope_evaluate : ∀ (chain : Chain) (around : Surroundings) (scope : Scope) (s : σ),
    (chain.evaluate scene ex around scope s).scope =
      Named.putAll scope (chain.recorded scene ex around scope s)
  | .nil, _, _, _ => rfl
  | .step label task rest, around, scope, s => by
    rw [recorded_step]
    exact link (scope_evaluate rest around)
  | .loop label settings body rest, around, scope, s => by
    rw [recorded_loop]
    exact link (scope_evaluate rest around)
where
  link {name : String} {e : StepEvaluation σ} {scope : Scope} {rest : Scope → σ → Evaluation σ}
      {more : Scope → σ → List (String × StepResult)}
      (h : ∀ scope s, (rest scope s).scope = Named.putAll scope (more scope s)) :
      (evaluateRest name e scope rest).scope =
        Named.putAll scope ((name, e.result) :: if e.result.isFailed then []
          else more (Named.put name e.result scope) e.state) := by
    cases hf : e.result.isFailed with
    | true => rw [evaluateRest_of_failed hf, if_pos rfl, Named.putAll_cons, Named.putAll_nil]
    | false =>
      rw [evaluateRest_of_succeeded hf, if_neg Bool.false_ne_true, Named.putAll_cons]
      exact h _ _

end Chain

/-- What becomes of a scope when results are recorded in it under these names, one after the
other. Every entry keeps its position, and its result unless its name is one of these; new
names go to the end. -/
structure Scope.GrowsBy (names : List String) (before after : Scope) : Prop where
  kept : ∀ (i : Nat) name r, before[i]? = some (name, r) →
    ∃ r', after[i]? = some (name, r') ∧ (name ∉ names → r' = r)
  names_eq : Named.names after =
    Named.names before ++ (names.filter (· ∉ Named.names before)).eraseDups

theorem Scope.growsBy_putAll (scope : Scope) (more : List (String × StepResult)) :
    scope.GrowsBy (Named.names more) (Named.putAll scope more) where
  kept _ _ _ h := Named.getElem?_putAll more h
  names_eq := Named.names_putAll more scope

/-! ### Without a scope -/

/-- A task makes one call at most. -/
theorem Task.length_calls_le (scene : Scene) (view : View) (ex : Executors σ) (task : Task)
    (s : σ) : ((task.perform scene view).calls ex s).length ≤ 1 := by
  have hrecorded := Task.recorded_of_yields (Process.yields_run ex (task.perform scene view) s)
  generalize (task.perform scene view).calls ex s = calls,
    ((task.perform scene view).run ex s).1 = r at hrecorded
  cases hrecorded with
  | called reply _ => exact Nat.le_refl 1
  | refused message _ _ => exact Nat.zero_le 1
  | answered settings output => exact Nat.zero_le 1

namespace Chain

/-- What the first action does by itself, if it is a task. -/
def firstTask (scene : Scene) (view : View) : Chain → Process Unit
  | .step _ task _ => (task.perform scene view).map fun _ => ()
  | _ => .done ()

theorem length_calls_firstTask_le (scene : Scene) (view : View) (ex : Executors σ)
    (chain : Chain) (s : σ) : ((chain.firstTask scene view).calls ex s).length ≤ 1 := by
  cases chain with
  | step label task rest =>
    simp only [firstTask, Process.map, Process.calls_bind, Process.calls_done, List.append_nil]
    exact task.length_calls_le scene view ex s
  | nil | loop _ _ _ _ => exact Nat.zero_le 1

theorem record_of_no_scope {path : Path} {t : Trace} (h : Trace.scope? t path = none)
    (name : String) (r : StepResult) (next : Trace → Process (Bool × Trace)) :
    record path name r t next = .done (false, t) := by
  rw [record, Trace.insert, Trace.modify_of_no_scope h]

theorem perform_of_no_scope {path : Path} {t : Trace} (h : Trace.scope? t path = none)
    (name : String) (body : Path → Trace → Process (Bool × Trace)) (resolved : Json) :
    ∃ r, Loop.perform name path body resolved t = .done (r, t) := by
  have hexact : Trace.getExact? t path name = none := by rw [Trace.getExact?, h, Option.bind_none]
  have hupdate : ∀ f, Trace.updateLoop t path name f = none := fun f => by
    rw [Trace.updateLoop, hexact, Option.bind_none]
  have hinsert : ∀ r, (Trace.insert t path name r).getD t = t := fun r => by
    rw [Trace.insert, Trace.modify_of_no_scope h, Option.getD_none]
  have hconclude : ∀ input failure, ∃ r, Loop.conclude name path input failure t = (r, t) :=
    fun input failure => ⟨_, by rw [Loop.conclude, hupdate, Option.getD_none]⟩
  cases resolved with
  | arr items =>
    simp only [Loop.perform, hinsert]
    cases items with
    | nil =>
      obtain ⟨r, hr⟩ := hconclude (.obj [("items", .arr [])]) none
      exact ⟨r, congrArg Process.done hr⟩
    | cons item items =>
      simp only [Loop.iterate, hupdate]
      obtain ⟨r, hr⟩ := hconclude (.obj [("items", .arr (item :: items))]) _
      exact ⟨r, congrArg Process.done hr⟩
  | null | bool _ | num _ | str _ | obj _ => exact ⟨_, rfl⟩

/-- At a path that leads to no scope, a chain does what its first action does by itself, and
leaves the trace as it is. -/
theorem run_of_no_scope (scene : Scene) (ex : Executors σ) (chain : Chain) {t : Trace}
    {path : Path} (h : Trace.scope? t path = none) (s : σ) :
    let p := chain.run scene path t
    let first := chain.firstTask scene (scene.view path t)
    p.run ex s = ((chain.isEmpty, t), (first.run ex s).2) ∧
      p.calls ex s = first.calls ex s := by
  cases chain with
  | nil => exact ⟨rfl, rfl⟩
  | step label task rest =>
    simp only [run, firstTask, Process.map, record_of_no_scope h, Process.run_look,
      Process.calls_look, Process.run_bind, Process.calls_bind]
    exact ⟨rfl, rfl⟩
  | loop label settings body rest =>
    obtain ⟨r, hr⟩ := perform_of_no_scope h label.name (run scene body)
      ((scene.view path t).resolve settings.items)
    simp only [run, hr, Process.bind, record_of_no_scope h]
    exact ⟨rfl, rfl⟩

/-- **A run touches its own scope and removes nothing.** Where the path leads to no scope, the
trace stays as it is, the first action makes its call, if any, and only a chain of no actions
completes. Elsewhere the path leads to a scope afterwards as well, that scope has grown by
what the history records there, under names of the first actions, and everything outside of
it is the same. -/
theorem run_frame (scene : Scene) (ex : Executors σ) (chain : Chain) (t : Trace) (path : Path)
    (s : σ) :
    let p := chain.run scene path t
    match Trace.scope? t path with
    | none =>
      let first := chain.firstTask scene (scene.view path t)
      p.run ex s = ((chain.isEmpty, t), (first.run ex s).2) ∧ p.calls ex s = first.calls ex s ∧
        (p.calls ex s).length ≤ 1
    | some scope =>
      let t' := (p.run ex s).1.2
      let names := Named.names
        (((chain.telling scene path t).history ex s).filterMap (Mark.recordAt? path))
      ∃ scope', Trace.scope? t' path = some scope' ∧ names <+: chain.names ∧
        scope.GrowsBy names scope' ∧ Trace.AlikeOutside path t t' := by
  intro p
  cases hscope : Trace.scope? t path with
  | none =>
    obtain ⟨hrun, hcalls⟩ := run_of_no_scope scene ex chain hscope s
    refine ⟨hrun, hcalls, ?_⟩
    rw [hcalls]
    exact length_calls_firstTask_le scene _ ex chain s
  | some scope =>
    -- The trace is the surroundings of the scope, filled with it, before and after.
    have hpath := Trace.path_surroundings hscope
    have hfill := Trace.fill_surroundings hscope
    generalize Trace.surroundings t path = around at hpath hfill
    subst hpath hfill
    obtain ⟨hrun, -⟩ := run_eq_evaluate scene ex chain around scope s
    have hhistory := (history_eq_chronicle scene ex chain around scope s).2
    have hmodify := Surroundings.modify_fill around scope fun _ =>
      (chain.evaluate scene ex around scope s).scope
    simp only [p, hrun, hhistory]
    refine ⟨_, Surroundings.scope?_fill .., names_recorded_isPrefix scene ex chain around scope s,
      ?_, Trace.alikeOutside_of_modify hmodify⟩
    rw [scope_evaluate]
    exact scope.growsBy_putAll _

end Chain
end Stepwise

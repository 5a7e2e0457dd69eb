/-
# The shape of finished runs

Every scope of a trace belongs to a chain: the trace to the chain of the flow, and each
iteration of a loop to the loop's body. A scope holds records for a prefix of its chain,
all of them of steps that succeeded except possibly the last. Where a step failed nothing
follows, neither in its own scope nor in any scope around it, and no loop around it has
gone on to another item.

Key definitions: `Chain.inner?`, `Chain.Shapes`, `Trace.StopsAt`, `Job.Shapes`.
Key theorems: `Chain.Leaves.runs`, `Chain.Leaves.inner`, `Chain.Leaves.at_path`,
`Job.report_shapes`.
-/
import Stepwise.Proofs.Run.Account

namespace Stepwise

variable {scene : Scene}

namespace Chain

/-- The body of the loop of the chain with a name. -/
def body? : Chain → String → Option Chain
  | .nil, _ => none
  | .step label _ rest, name => if label.name = name then none else rest.body? name
  | .loop label _ body rest, name => if label.name = name then some body else rest.body? name

/-- The chain that a scope belongs to, by the path that leads to the scope. -/
def inner? (chain : Chain) : Path → Option Chain
  | [] => some chain
  | (name, _) :: rest => (chain.body? name).bind (inner? · rest)

/-- Records of a run of the chain. -/
structure Shapes (chain : Chain) (entries : Scope) : Prop where
  names_prefix : Named.names entries <+: chain.names
  succeeded : ∀ e ∈ entries.dropLast, e.2.status = .succeeded
  whole_iff : Named.names entries = chain.names ↔
    (∀ e ∈ entries, e.2.status ≠ .failed) ∨
      ∃ e ∈ entries, e.2.status = .failed ∧ chain.names.getLast? = some e.1

theorem NamesApart.of_body? : ∀ {chain body : Chain} {name : String}, chain.NamesApart →
    chain.body? name = some body → body.NamesApart
  | .step _ _ _, _, _, hapart, hbody => by
    rw [body?] at hbody
    split at hbody
    · contradiction
    · exact hapart.2.of_body? hbody
  | .loop _ _ _ _, _, _, hapart, hbody => by
    rw [body?] at hbody
    split at hbody
    · exact Option.some.inj hbody ▸ hapart.2.1
    · exact hapart.2.2.of_body? hbody

theorem NamesApart.of_inner? : ∀ (path : Path) {chain inner : Chain}, chain.NamesApart →
    chain.inner? path = some inner → inner.NamesApart
  | [], _, _, hapart, hinner => Option.some.inj hinner ▸ hapart
  | _ :: path, _, _, hapart, hinner => by
    obtain ⟨body, hbody, hinner⟩ := Option.bind_eq_some_iff.mp hinner
    exact of_inner? path (hapart.of_body? hbody) hinner

end Chain

/-- The last record of the scope is that of the loop of the frame; it has failed, in the
iteration of the frame, and has no further iteration. -/
def Scope.EndsIn (s : Scope) (frame : Frame) : Prop :=
  ∃ r summary, s.getLast? = some (frame.1, r) ∧ r.status = .failed ∧
    r.loop? = some summary ∧ summary.iterations.length = frame.2 + 1

/-- A record is the last one in the scope that the path leads to, and every scope around it
ends in the iteration that the path goes through. -/
def Trace.StopsAt (t : Trace) (path : Path) (e : String × StepResult) : Prop :=
  (∃ scope, scope? t path = some scope ∧ scope.getLast? = some e) ∧
    ∀ outer frame rest, path = outer ++ frame :: rest →
      ∃ around, scope? t outer = some around ∧ around.EndsIn frame

theorem StepResult.isFailed_iff (r : StepResult) : r.isFailed = true ↔ r.status = .failed := by
  simp [isFailed]

theorem StepResult.isFailed_eq_false_iff (r : StepResult) :
    r.isFailed = false ↔ r.status = .succeeded := by
  cases h : r.status <;> simp [isFailed, h]

/-! ### One scope -/

/-- Either all of these names have a record and every step succeeded, or a prefix has, of
which only the last step failed. -/
inductive Account.Runs (names : List String) : Account → Prop where
  | whole {entries : Scope} {calls : List (Call × Reply)} (hnames : Named.names entries = names)
      (hall : ∀ e ∈ entries, e.2.isFailed = false) : Runs names ⟨true, entries, calls⟩
  | stopped {before : Scope} {last : String × StepResult} {calls : List (Call × Reply)}
      (hbefore : ∀ e ∈ before, e.2.isFailed = false) (hlast : last.2.isFailed = true)
      (hnames : Named.names (before ++ [last]) <+: names) :
    Runs names ⟨false, before ++ [last], calls⟩

theorem Account.Begins.runs {name : String} {calls : List (Call × Reply)} {r : StepResult}
    {allowed : Account → Prop} {names : List String} {a : Account}
    (h : Account.Begins name calls r allowed a) (ih : ∀ a, allowed a → a.Runs names) :
    a.Runs (name :: names) := by
  cases h with
  | failed hr =>
    have hnone : ∀ e ∈ ([] : Scope), e.2.isFailed = false := fun _ he => nomatch he
    exact .stopped hnone hr ⟨names, rfl⟩
  | succeeded hr ha =>
    cases ih _ ha with
    | whole hnames hall =>
      exact .whole (congrArg (name :: ·) hnames) (List.forall_mem_cons.mpr ⟨hr, hall⟩)
    | stopped hbefore hlast hnames =>
      exact .stopped (List.forall_mem_cons.mpr ⟨hr, hbefore⟩) hlast
        (List.cons_prefix_cons.mpr ⟨rfl, hnames⟩)

/-- What a chain leaves runs through the names of the chain. -/
theorem Chain.Leaves.runs : ∀ {chain : Chain} {a : Account}, chain.Leaves scene a →
    a.Runs chain.names
  | .nil, _, h => h ▸ .whole rfl fun _ he => nomatch he
  | .step _ _ _, _, ⟨_, _, _, hbegins⟩ => hbegins.runs fun _ => runs
  | .loop _ _ _ _, _, ⟨_, _, _, hbegins⟩ => hbegins.runs fun _ => runs

namespace Account.Runs

variable {names : List String} {a : Account}

theorem names_prefix (h : a.Runs names) : Named.names a.entries <+: names := by
  cases h with
  | whole hnames _ => exact hnames ▸ List.prefix_rfl
  | stopped _ _ hnames => exact hnames

/-- A failed step is the last one. -/
theorem getLast?_of_failed (h : a.Runs names) {e : String × StepResult} (he : e ∈ a.entries)
    (hf : e.2.isFailed = true) : a.completed = false ∧ a.entries.getLast? = some e := by
  cases h with
  | whole _ hall => simp [hall e he] at hf
  | stopped hbefore _ _ =>
    rcases List.mem_append.mp he with he | he
    · simp [hbefore e he] at hf
    · rw [List.mem_singleton.mp he]
      exact ⟨rfl, List.getLast?_concat⟩

theorem getLast?_of_stopped (h : a.Runs names) (hstopped : a.completed = false) :
    ∃ e ∈ a.entries, a.entries.getLast? = some e ∧ e.2.isFailed = true := by
  cases h with
  | whole _ _ => contradiction
  | @stopped before last _ _ hlast _ =>
    exact ⟨last, List.mem_append_right before List.mem_cons_self, List.getLast?_concat, hlast⟩

/-- A prefix that ends in the last of the names is all of them. -/
theorem names_eq_of_getLast? {before : Scope} {last : String × StepResult}
    (hnodup : names.Nodup) (h : Named.names (before ++ [last]) <+: names)
    (hlast : names.getLast? = some last.1) : Named.names (before ++ [last]) = names := by
  obtain ⟨more, rfl⟩ := h
  cases hmore : more.getLast? with
  | none =>
    rw [List.getLast?_eq_none_iff.mp hmore, List.append_nil]
  | some name =>
    rw [List.getLast?_append, hmore, Option.some_or, Option.some.injEq] at hlast
    have hmem : last.1 ∈ Named.names (before ++ [last]) := by simp [Named.names]
    -- The name of the last step would stand among the names after the prefix again.
    have hdisjoint := (List.nodup_append.mp hnodup).2.2
    exact absurd hlast.symm (hdisjoint _ hmem _ (List.mem_of_getLast? hmore))

/-- The first failed step of what a chain left is the last one, if the chain stopped early. -/
theorem firstFailure? (h : a.Runs names) :
    Scope.firstFailure? a.entries = if a.completed then none else a.entries.getLast? := by
  cases h with
  | whole _ hall =>
    rw [Scope.firstFailure?, if_pos rfl, List.find?_eq_none]
    intro e he
    simp [hall e he]
  | @stopped before last _ hbefore hlast _ =>
    have hnone : before.find? (·.2.isFailed) = none :=
      List.find?_eq_none.mpr fun e he => by simp [hbefore e he]
    simp [Scope.firstFailure?, List.find?_append, hnone, hlast]

/-- No more than one step has failed. -/
theorem length_failed_le (h : a.Runs names) : (a.entries.filter (·.2.isFailed)).length ≤ 1 := by
  cases h with
  | whole _ hall =>
    rw [List.filter_eq_nil_iff.mpr fun e he => by simp [hall e he]]
    exact Nat.zero_le 1
  | @stopped before last _ hbefore _ _ =>
    rw [List.filter_append, List.filter_eq_nil_iff.mpr fun e he => by simp [hbefore e he],
      List.nil_append]
    exact List.length_filter_le _ [last]

theorem shapes {chain : Chain} (hnodup : chain.names.Nodup) (h : a.Runs chain.names) :
    chain.Shapes a.entries := by
  refine ⟨h.names_prefix, ?_, ?_⟩
  · intro e he
    rw [← StepResult.isFailed_eq_false_iff]
    cases h with
    | whole _ hall => exact hall e (List.dropLast_subset _ he)
    | stopped hbefore _ _ => exact hbefore e (by simpa using he)
  · cases h with
    | whole hnames hall =>
      refine iff_of_true hnames (.inl fun e he hf => ?_)
      rw [← StepResult.isFailed_iff, hall e he] at hf
      contradiction
    | @stopped before last _ hbefore hlast hnames =>
      have hfailed := (StepResult.isFailed_iff last.2).mp hlast
      constructor
      · intro hwhole
        refine .inr ⟨last, by simp, hfailed, ?_⟩
        rw [← hwhole, Named.names_append]
        exact List.getLast?_concat
      · rintro (hall | ⟨e, he, hf, hlastName⟩)
        · exact absurd hfailed (hall last (by simp))
        · rcases List.mem_append.mp he with he | he
          · rw [← StepResult.isFailed_iff, hbefore e he] at hf
            contradiction
          · rw [List.mem_singleton.mp he] at hlastName
            exact names_eq_of_getLast? hnodup hnames hlastName

end Account.Runs

/-! ### Scopes along a path -/

theorem Scope.inner?_cons (name : String) (r : StepResult) (rest : Scope) (frame : Frame) :
    Scope.inner? ((name, r) :: rest) frame =
      if name = frame.1 then r.loop?.bind (·.iterations[frame.2]?)
      else Scope.inner? rest frame := by
  by_cases h : name = frame.1 <;> simp [inner?, Named.get?, h]

theorem Scope.EndsIn.cons {s : Scope} {frame : Frame} (h : s.EndsIn frame)
    (e : String × StepResult) : Scope.EndsIn (e :: s) frame := by
  obtain ⟨r, summary, hlast, hrest⟩ := h
  exact ⟨r, summary, by simp [List.getLast?_cons, hlast], hrest⟩

theorem Loop.Iterated.getElem? {body : Account → Prop} {items : List Json}
    {failure : Option String} {scopes : List Scope} {calls : List (Call × Reply)}
    (h : Iterated body items failure scopes calls) :
    ∀ {index : Nat} {inner : Scope}, scopes[index]? = some inner →
      ∃ a, body a ∧ a.entries = inner ∧
        (a.completed = false → failure.isSome = true ∧ scopes.length = index + 1) := by
  induction h with
  | finished => exact fun hinner => nomatch hinner
  | @completed item items a failure scopes calls ha hdone h ih =>
    intro index inner hinner
    cases index with
    | zero => exact ⟨a, ha, by simpa using hinner, fun hnot => by simp [hdone] at hnot⟩
    | succ index =>
      obtain ⟨b, hb, hentries, hstop⟩ := ih hinner
      exact ⟨b, hb, hentries, fun hnot => ⟨(hstop hnot).1, congrArg (· + 1) (hstop hnot).2⟩⟩
  | @stopped item items a name r message ha hdone hr hm =>
    intro index inner hinner
    cases index with
    | zero => exact ⟨a, ha, by simpa using hinner, fun _ => ⟨rfl, rfl⟩⟩
    | succ index => simp at hinner

/-- An iteration in the record of a loop is what the body left; if it stopped early, the
loop has failed and has no further iteration. -/
theorem Loop.Recorded.getElem? {body : Account → Prop} {calls : List (Call × Reply)}
    {r : StepResult} (h : Loop.Recorded body calls r) {summary : LoopSummary StepResult}
    (hl : r.loop? = some summary) {index : Nat} {inner : Scope}
    (hinner : summary.iterations[index]? = some inner) :
    ∃ a, body a ∧ a.entries = inner ∧
      (a.completed = false → r.isFailed = true ∧ summary.iterations.length = index + 1) := by
  cases h with
  | refused _ => simp at hl
  | @iterated items failure scopes _ h =>
    rw [StepResult.loop?_ofLoop, Option.some.injEq] at hl
    subst hl
    obtain ⟨a, ha, hentries, hstop⟩ := h.getElem? hinner
    refine ⟨a, ha, hentries, fun hnot => ⟨?_, (hstop hnot).2⟩⟩
    rw [StepResult.isFailed_ofLoop]
    exact (hstop hnot).1

/-- Where an iteration stands that is found in what a step and its rest leave. -/
theorem Account.Begins.inner {name : String} {calls : List (Call × Reply)} {r : StepResult}
    {allowed : Account → Prop} {a : Account} {frame : Frame} {inner : Scope}
    (h : Account.Begins name calls r allowed a)
    (hinner : Scope.inner? a.entries frame = some inner) :
    (name = frame.1 ∧ ∃ summary, r.loop? = some summary ∧
      summary.iterations[frame.2]? = some inner ∧
      (r.isFailed = true → summary.iterations.length = frame.2 + 1 →
        a.completed = false ∧ a.entries.EndsIn frame)) ∨
    (name ≠ frame.1 ∧ ∃ b, allowed b ∧ Scope.inner? b.entries frame = some inner ∧
      a.completed = b.completed ∧ (b.entries.EndsIn frame → a.entries.EndsIn frame)) := by
  cases h with
  | failed hr =>
    rw [Scope.inner?_cons] at hinner
    by_cases hname : name = frame.1
    · rw [if_pos hname] at hinner
      obtain ⟨summary, hl, hi⟩ := Option.bind_eq_some_iff.mp hinner
      refine .inl ⟨hname, summary, hl, hi, fun hf hlength => ⟨rfl, r, summary, ?_, ?_, hl, hlength⟩⟩
      · rw [hname]
        rfl
      · exact r.isFailed_iff.mp hf
    · simp [hname, Scope.inner?, Named.get?] at hinner
  | @succeeded b hr hb =>
    rw [Scope.inner?_cons] at hinner
    by_cases hname : name = frame.1
    · rw [if_pos hname] at hinner
      obtain ⟨summary, hl, hi⟩ := Option.bind_eq_some_iff.mp hinner
      exact .inl ⟨hname, summary, hl, hi, fun hf => by simp [hr] at hf⟩
    · rw [if_neg hname] at hinner
      exact .inr ⟨hname, b, hb, hinner, rfl, fun hends => hends.cons (name, r)⟩

namespace Chain.Leaves

/-- An iteration in what a chain leaves is what the body of its loop left; if it stopped
early, so did the chain, in this iteration. -/
theorem inner : ∀ {chain : Chain} {a : Account} {frame : Frame} {inner : Scope},
    chain.Leaves scene a → Scope.inner? a.entries frame = some inner →
      ∃ body b, chain.body? frame.1 = some body ∧ body.Leaves scene b ∧ b.entries = inner ∧
        (b.completed = false → a.completed = false ∧ a.entries.EndsIn frame)
  | .nil, _, _, _, rfl, hinner => nomatch hinner
  | .step label task rest, _, _, _, ⟨_, _, hrecorded, hbegins⟩, hinner => by
    rcases hbegins.inner hinner with ⟨_, summary, hl, -⟩ | ⟨hname, b, hb, hinner, hdone, hends⟩
    · rw [hrecorded.loop?] at hl
      contradiction
    · obtain ⟨body, c, hbody, hc, hentries, hstop⟩ := inner hb hinner
      refine ⟨body, c, by rw [body?, if_neg hname, hbody], hc, hentries, fun hnot => ?_⟩
      exact ⟨hdone.trans (hstop hnot).1, hends (hstop hnot).2⟩
  | .loop label settings body rest, _, _, _, ⟨_, _, hrecorded, hbegins⟩, hinner => by
    rcases hbegins.inner hinner with ⟨hname, summary, hl, hi, hends⟩ |
      ⟨hname, b, hb, hinner, hdone, hends⟩
    · obtain ⟨c, hc, hentries, hstop⟩ := hrecorded.getElem? hl hi
      refine ⟨body, c, by rw [body?, if_pos hname], hc, hentries, fun hnot => ?_⟩
      exact hends (hstop hnot).1 (hstop hnot).2
    · obtain ⟨found, c, hbody, hc, hentries, hstop⟩ := inner hb hinner
      refine ⟨found, c, by rw [body?, if_neg hname, hbody], hc, hentries, fun hnot => ?_⟩
      exact ⟨hdone.trans (hstop hnot).1, hends (hstop hnot).2⟩

/-- The scope that a path leads to is what the chain of the path left; if that chain stopped
early, every scope around it ends in the iteration that the path goes through. -/
theorem at_path : ∀ (path : Path) {chain : Chain} {a : Account} {scope : Scope},
    chain.Leaves scene a → Trace.scope? a.entries path = some scope →
      ∃ c b, chain.inner? path = some c ∧ c.Leaves scene b ∧ b.entries = scope ∧
        (b.completed = false → a.completed = false ∧
          ∀ outer frame rest, path = outer ++ frame :: rest →
            ∃ around, Trace.scope? a.entries outer = some around ∧ around.EndsIn frame)
  | [], chain, a, scope, h, hscope => by
    rw [Trace.scope?, Option.some.injEq] at hscope
    refine ⟨chain, a, rfl, h, hscope, fun hnot => ⟨hnot, fun outer frame rest hpath => ?_⟩⟩
    simp at hpath
  | frame :: path, chain, a, scope, h, hscope => by
    obtain ⟨iteration, hinner, hscope⟩ := Option.bind_eq_some_iff.mp hscope
    obtain ⟨body, b, hbody, hb, rfl, hstop⟩ := h.inner hinner
    obtain ⟨c, d, hc, hd, hentries, hbelow⟩ := at_path path hb hscope
    refine ⟨c, d, by rw [inner?, hbody, Option.bind_some, hc], hd, hentries, fun hnot => ?_⟩
    obtain ⟨hbnot, hrest⟩ := hbelow hnot
    refine ⟨(hstop hbnot).1, fun outer other rest hpath => ?_⟩
    cases outer with
    | nil =>
      obtain ⟨rfl, rfl⟩ := List.cons.inj hpath
      exact ⟨a.entries, rfl, (hstop hbnot).2⟩
    | cons first outer =>
      obtain ⟨rfl, htail⟩ := List.cons.inj hpath
      obtain ⟨around, haround, hends⟩ := hrest outer other rest htail
      exact ⟨around, by rw [Trace.scope?, hinner, Option.bind_some, haround], hends⟩

end Chain.Leaves

/-- Each scope in what a chain leaves holds records of its own chain. -/
theorem Chain.Leaves.shapes_at_path {chain : Chain} {a : Account} {path : Path} {scope : Scope}
    (h : chain.Leaves scene a) (hapart : chain.NamesApart)
    (hscope : Trace.scope? a.entries path = some scope) :
    ∃ inner, chain.inner? path = some inner ∧ inner.Shapes scope := by
  obtain ⟨inner, b, hinner, hb, rfl, -⟩ := h.at_path path hscope
  exact ⟨inner, hinner, hb.runs.shapes (hapart.of_inner? path hinner).nodup⟩

/-- Nothing stands after a failed step in what a chain leaves. -/
theorem Chain.Leaves.stopsAt {chain : Chain} {a : Account} {path : Path} {scope : Scope}
    {e : String × StepResult} (h : chain.Leaves scene a)
    (hscope : Trace.scope? a.entries path = some scope) (he : e ∈ scope)
    (hf : e.2.isFailed = true) : Trace.StopsAt a.entries path e := by
  obtain ⟨_, b, _, hb, rfl, hstop⟩ := h.at_path path hscope
  obtain ⟨hnot, hlast⟩ := hb.runs.getLast?_of_failed he hf
  exact ⟨⟨b.entries, hscope, hlast⟩, (hstop hnot).2⟩

/-! ### The whole trace -/

/-- A record of no loop, under a name that no other record has, leads to no scope. -/
theorem Trace.scope?_cons {e : String × StepResult} {entries : Scope} (hl : e.2.loop? = none)
    (hnew : e.1 ∉ Named.names entries) : ∀ {path : Path}, path ≠ [] →
      scope? (e :: entries) path = scope? entries path
  | [], hpath => absurd rfl hpath
  | frame :: rest, _ => by
    have hinner : Scope.inner? (e :: entries) frame = Scope.inner? entries frame := by
      rw [Scope.inner?_cons]
      by_cases hname : e.1 = frame.1
      · rw [if_pos hname, hl, Scope.inner?, ← hname, Named.get?_of_not_mem hnew]
        rfl
      · rw [if_neg hname]
    rw [scope?, hinner, scope?]

theorem Trace.StopsAt.cons {first e : String × StepResult} {entries : Scope} {path : Path}
    (h : StopsAt entries path e) (hl : first.2.loop? = none)
    (hnew : first.1 ∉ Named.names entries) : StopsAt (first :: entries) path e := by
  obtain ⟨⟨scope, hscope, hlast⟩, hends⟩ := h
  refine ⟨?_, fun outer frame rest hpath => ?_⟩
  · cases path with
    | nil =>
      rw [scope?, Option.some.injEq] at hscope
      exact ⟨_, rfl, by simp [List.getLast?_cons, hscope, hlast]⟩
    | cons frame path =>
      have hcons := scope?_cons hl hnew (List.cons_ne_nil frame path)
      exact ⟨scope, hcons.trans hscope, hlast⟩
  · obtain ⟨around, haround, hend⟩ := hends outer frame rest hpath
    cases outer with
    | nil =>
      rw [scope?, Option.some.injEq] at haround
      exact ⟨_, rfl, Scope.EndsIn.cons (haround ▸ hend) first⟩
    | cons frame outer =>
      have hcons := scope?_cons hl hnew (List.cons_ne_nil frame outer)
      exact ⟨around, hcons.trans haround, hend⟩

/-- A chain completed exactly if all its steps have a record and succeeded. -/
theorem Chain.Leaves.completed_iff {chain : Chain} {a : Account} (h : chain.Leaves scene a)
    (hapart : chain.NamesApart) :
    a.completed = true ↔ ∀ action ∈ chain.topLevel,
      ∃ r, Named.get? a.entries action.label.name = some r ∧ r.status = .succeeded := by
  have hruns := h.runs
  have hentries : (Named.names a.entries).Nodup :=
    hapart.nodup.sublist hruns.names_prefix.sublist
  generalize hnames : chain.names = names at hruns
  cases hruns with
  | @whole entries _ hwhole hall =>
    refine iff_of_true rfl fun action haction => ?_
    have hmem : action.label.name ∈ Named.names entries :=
      hwhole ▸ hnames ▸ List.mem_map_of_mem haction
    obtain ⟨⟨name, r⟩, he, hname⟩ := List.mem_map.mp hmem
    exact ⟨r, hname ▸ Named.get?_of_mem hentries he, r.isFailed_eq_false_iff.mp (hall _ he)⟩
  | @stopped before last _ _ hlast hprefix =>
    refine iff_of_false nofun fun hall => ?_
    have hmem : last.1 ∈ chain.names := hnames ▸ hprefix.subset (by simp [Named.names])
    obtain ⟨action, haction, hname⟩ := List.mem_map.mp hmem
    obtain ⟨r, hr, hstatus⟩ := hall action haction
    have hfound : Named.get? (before ++ [last]) last.1 = some last.2 :=
      Named.get?_of_mem hentries (by simp)
    rw [hname, hfound, Option.some.injEq] at hr
    rw [← hr, ← StepResult.isFailed_eq_false_iff, hlast] at hstatus
    contradiction

namespace Job

variable {generated : String} {document : Json} {job : Job} {a : Account} {σ : Type}

theorem trigger_not_mem_entries (h : ofJson generated document = .ok job)
    (hleaves : job.flow.trigger.chain.Leaves job.scene a) :
    triggerStep ∉ Named.names a.entries := fun hmem =>
  trigger_not_mem h (hleaves.runs.names_prefix.subset hmem)

/-- The error of a report is the failure of the last step, if the chain stopped early. -/
theorem error_conclude (job : Job) {names : List String} (h : a.Runs names)
    (startedAt : Timestamp) (durationMs : Nat) :
    (job.conclude startedAt durationMs a.completed ((triggerStep, job.seed) :: a.entries)).error =
      if a.completed then none
      else a.entries.getLast?.map fun e => ⟨e.1, e.2.failure e.1⟩ := by
  have hfirst : Trace.firstFailure? ((triggerStep, job.seed) :: a.entries) =
      if a.completed then none else a.entries.getLast? := h.firstFailure?
  cases h <;> simp [conclude, Report.ofTrace, Report.failureOf, hfirst]

/-- A run failed exactly if its chain stopped early. -/
theorem status_conclude (job : Job) {names : List String} (h : a.Runs names)
    (startedAt : Timestamp) (durationMs : Nat) :
    (job.conclude startedAt durationMs a.completed ((triggerStep, job.seed) :: a.entries)).status =
      if a.completed then .succeeded else .failed := by
  have herror := error_conclude job h startedAt durationMs
  simp only [conclude, Report.ofTrace] at herror ⊢
  rw [herror]
  cases h <;> simp

/-- Below the top, the scopes of a trace are those of what the chain left. -/
theorem scope?_below (h : ofJson generated document = .ok job)
    (hleaves : job.flow.trigger.chain.Leaves job.scene a) {path : Path} (hpath : path ≠ []) :
    Trace.scope? ((triggerStep, job.seed) :: a.entries) path = Trace.scope? a.entries path :=
  Trace.scope?_cons rfl (trigger_not_mem_entries h hleaves) hpath

/-- Every scope of the trace is what the chain of its path left, at the top after the
trigger. -/
theorem scope_leaves (h : ofJson generated document = .ok job)
    (hleaves : job.flow.trigger.chain.Leaves job.scene a) {path : Path} {scope : Scope}
    (hscope : Trace.scope? ((triggerStep, job.seed) :: a.entries) path = some scope) :
    ∃ chain b, job.flow.trigger.chain.inner? path = some chain ∧ chain.Leaves job.scene b ∧
      (scope = b.entries ∨ path = [] ∧ scope = (triggerStep, job.seed) :: b.entries) := by
  by_cases hpath : path = []
  · subst hpath
    cases hscope
    exact ⟨_, a, rfl, hleaves, .inr ⟨rfl, rfl⟩⟩
  · rw [scope?_below h hleaves hpath] at hscope
    obtain ⟨chain, b, hinner, hb, hentries, -⟩ := hleaves.at_path path hscope
    exact ⟨chain, b, hinner, hb, .inl hentries.symm⟩

/-- The trace of a run holds the record of the trigger and then records of the chain of the
flow; every iteration of a loop, however deep, holds records of the loop's body. The run
succeeded exactly if every step of the chain has a record and succeeded, and nothing is
recorded after a failed step. -/
structure Shapes (job : Job) (report : Report) : Prop where
  topLevel : ∃ entries, report.trace = (triggerStep, job.seed) :: entries ∧
    job.flow.trigger.chain.Shapes entries
  iterations : ∀ path scope, path ≠ [] → Trace.scope? report.trace path = some scope →
    ∃ body, job.flow.trigger.chain.inner? path = some body ∧ body.Shapes scope
  succeeded_iff : report.status = .succeeded ↔ ∀ action ∈ job.flow.trigger.chain.topLevel,
    ∃ r, Named.get? report.trace action.label.name = some r ∧ r.status = .succeeded
  stops : ∀ path scope e, Trace.scope? report.trace path = some scope → e ∈ scope →
    e.2.status = .failed → report.trace.StopsAt path e

/-- **The shape of every finished run.** It is the same for every job that is accepted,
whoever answers the calls. -/
theorem report_shapes (h : ofJson generated document = .ok job) (ex : Executors σ) (s : σ)
    (startedAt : Timestamp) (durationMs : Nat) :
    job.Shapes (job.report ex s startedAt durationMs).1 := by
  obtain ⟨a, hleaves, -, -, hreport⟩ := report_leaves h ex s startedAt durationMs
  have hapart := namesApart h
  have hnew := trigger_not_mem_entries h hleaves
  rw [hreport]
  refine ⟨⟨a.entries, rfl, hleaves.runs.shapes hapart.nodup⟩, ?_, ?_, ?_⟩
  · intro path scope hpath hscope
    exact hleaves.shapes_at_path hapart ((scope?_below h hleaves hpath).symm.trans hscope)
  · have hstatus : (if a.completed then Status.succeeded else .failed) = .succeeded ↔
        a.completed = true := by
      cases a.completed <;> simp
    rw [status_conclude job hleaves.runs, hstatus]
    refine (hleaves.completed_iff hapart).trans (forall₂_congr fun action haction => ?_)
    have hname : triggerStep ≠ action.label.name := fun he =>
      trigger_not_mem h (he ▸ List.mem_map_of_mem haction)
    have hget : Named.get? ((triggerStep, job.seed) :: a.entries) action.label.name =
        Named.get? a.entries action.label.name := if_neg hname
    exact hget ▸ Iff.rfl
  · intro path scope e hscope he hf
    have hfailed := (StepResult.isFailed_iff e.2).mpr hf
    refine Trace.StopsAt.cons ?_ rfl hnew
    by_cases hpath : path = []
    · subst hpath
      cases hscope
      rcases List.mem_cons.mp he with rfl | he
      · contradiction
      · have htop : Trace.scope? a.entries [] = some a.entries := rfl
        exact hleaves.stopsAt htop he hfailed
    · exact hleaves.stopsAt ((scope?_below h hleaves hpath).symm.trans hscope) he hfailed

theorem report_shapes_grid :
    ofJson "run-1" Grid.document = .ok (Grid.job "run-1") ∧
      (Grid.job "run-1").Shapes
        ((Grid.job "run-1").report Grid.script.executors ⟨[], []⟩ ⟨0, 0⟩ 0).1 :=
  ⟨Grid.accepted "run-1",
    report_shapes (Grid.accepted "run-1") Grid.script.executors ⟨[], []⟩ ⟨0, 0⟩ 0⟩

end Job
end Stepwise

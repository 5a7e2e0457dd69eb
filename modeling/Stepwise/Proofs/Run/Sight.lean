/-
# What a chain shows on the way

While a chain runs in a scope, everything that happens stands in that scope or in an
iteration of one of the chain's own loops. Whenever a step looks or is recorded, the trace
is the one in which the chain began, but for records of the chain at the end of its scope;
and the scopes that the path leads through from there hold records of the chain only. So a
name that the chain does not use is looked up in the chain's scope, not further inside. And
what happens in one iteration, or before the chain goes on, is off the path of everything
that happens after it.

Key definitions: `Mark.moment?`, `Trace.HoldsBelow`, `Chain.Shows`.
Key theorems: `Trace.HoldsBelow.get?_eq`, `Chain.shows_of_mem`, `Chain.pairwise_chronicle`.
-/
import Stepwise.Proofs.Run.Account
import Stepwise.Proofs.Run.Chronicle

namespace Stepwise

variable {σ : Type}

/-- Where and when a step looks or is recorded. -/
def Mark.moment? : Mark → Option Moment
  | .look m => some m
  | .call _ _ => none
  | .record e => some ⟨e.path, e.name, e.trace⟩

theorem Mark.moment?_of_mem_ofCalls {mark : Mark} {calls : List (Call × Reply)}
    (h : mark ∈ Mark.ofCalls calls) : mark.moment? = none := by
  obtain ⟨c, -, rfl⟩ := List.mem_map.mp h
  rfl

/-- The name that a path begins with, or that of the step at its end if it is empty. -/
def Path.lead (name : String) : Path → String
  | [] => name
  | frame :: _ => frame.1

/-! ### Scopes along a path -/

/-- The scopes that the path leads through, below the first, hold records under these names
only. -/
def Trace.HoldsBelow (t : Trace) (path : Path) (names : List String) : Prop :=
  ∀ frames inner, frames ≠ [] → frames <+: path → scope? t frames = some inner →
    Named.names inner ⊆ names

namespace Trace.HoldsBelow

variable {t : Trace} {path : Path} {names : List String}

theorem nil (t : Trace) (names : List String) : HoldsBelow t [] names := by
  intro frames inner hne hprefix
  exact absurd (List.prefix_nil.mp hprefix) hne

theorem mono (h : HoldsBelow t path names) {more : List String} (hmore : names ⊆ more) :
    HoldsBelow t path more := by
  intro frames inner hne hprefix hscope
  exact List.Subset.trans (h frames inner hne hprefix hscope) hmore

theorem cons {inner : Scope} {frame : Frame} (hinner : t.inner? frame = some inner)
    (hown : Named.names inner ⊆ names) (h : HoldsBelow inner path names) :
    HoldsBelow t (frame :: path) names := by
  intro frames found hne hprefix hscope
  cases frames with
  | nil => exact absurd rfl hne
  | cons first rest =>
    obtain ⟨rfl, hrest⟩ := List.cons_prefix_cons.mp hprefix
    rw [scope?, hinner, Option.bind_some] at hscope
    by_cases hempty : rest = []
    · subst hempty
      rw [scope?, Option.some.injEq] at hscope
      exact hscope ▸ hown
    · exact h rest found hempty hrest hscope

theorem of_cons {inner : Scope} {frame : Frame} (hinner : t.inner? frame = some inner)
    (h : HoldsBelow t (frame :: path) names) :
    Named.names inner ⊆ names ∧ HoldsBelow inner path names := by
  have hstep : ∀ rest, scope? t (frame :: rest) = scope? inner rest := by
    intro rest
    rw [scope?, hinner, Option.bind_some]
  refine ⟨?_, fun frames found _ hprefix hscope => ?_⟩
  · exact h [frame] inner (List.cons_ne_nil _ _)
      (List.cons_prefix_cons.mpr ⟨rfl, List.nil_prefix⟩) (hstep [])
  · exact h (frame :: frames) found (List.cons_ne_nil _ _)
      (List.cons_prefix_cons.mpr ⟨rfl, hprefix⟩) ((hstep frames).trans hscope)

/-- A name that no scope further inside has is looked up in the first. -/
theorem get?_eq : ∀ {path : Path} {t : Trace}, HoldsBelow t path names →
    ∀ {name : String}, name ∉ names → Trace.get? t path name = Named.get? t name
  | [], t, _, name, _ => get?_nil t name
  | frame :: path, t, h, name, hname => by
    cases hinner : t.inner? frame with
    | none => rw [get?, visible, hinner, List.findSome?_singleton]
    | some inner =>
      obtain ⟨hown, hbelow⟩ := h.of_cons hinner
      have hnone : Named.get? inner name = none :=
        Named.get?_of_not_mem fun hmem => hname (hown hmem)
      rw [get?_cons hinner, get?_eq hbelow hname, hnone, Option.none_or]

end Trace.HoldsBelow

/-! ### Moments of a chain -/

/-- A moment while the chain runs that began in the scope: `below` is the path from the
scope to the step, and `added` are the records that the scope has had since. -/
structure Chain.ShowsAt (chain : Chain) (around : Surroundings) (scope : Scope) (m : Moment)
    (below : Path) (added : Scope) : Prop where
  path_eq : m.path = around.path ++ below
  trace_eq : m.trace = around.fill (scope ++ added)
  lead_mem : below.lead m.name ∈ chain.names
  name_mem : m.name ∈ chain.allNames
  added_subset : Named.names added ⊆ chain.names
  holdsBelow : Trace.HoldsBelow (scope ++ added) below chain.allNames

/-- A moment while the chain runs that began in the scope. -/
def Chain.Shows (chain : Chain) (around : Surroundings) (scope : Scope) (m : Moment) : Prop :=
  ∃ below added, chain.ShowsAt around scope m below added

namespace Chain

/-- The moment at which a chain begins. -/
theorem shows_first {chain : Chain} {name : String} (hname : name ∈ chain.names)
    (around : Surroundings) (scope : Scope) :
    chain.Shows around scope ⟨around.path, name, around.fill scope⟩ := by
  refine ⟨[], [], (List.append_nil _).symm, ?_, hname, names_subset_allNames chain hname, ?_, ?_⟩
  · rw [List.append_nil]
  · exact List.nil_subset _
  · exact .nil _ _

/-- The moment at which a step has just been recorded. -/
theorem shows_recorded {chain : Chain} {name : String} (hname : name ∈ chain.names)
    (around : Surroundings) (scope : Scope) (r : StepResult) :
    chain.Shows around scope ⟨around.path, name, around.fill (scope ++ [(name, r)])⟩ := by
  refine ⟨[], [(name, r)], (List.append_nil _).symm, rfl, hname,
    names_subset_allNames chain hname, ?_, .nil _ _⟩
  exact List.cons_subset.mpr ⟨hname, List.nil_subset _⟩

/-- A moment while the rest of a chain runs is one while the chain runs. -/
theorem Shows.of_rest {chain rest : Chain} {around : Surroundings} {scope : Scope} {m : Moment}
    {name : String} {r : StepResult} (hname : name ∈ chain.names)
    (hnames : rest.names ⊆ chain.names) (hall : rest.allNames ⊆ chain.allNames)
    (h : rest.Shows around (scope ++ [(name, r)]) m) : chain.Shows around scope m := by
  obtain ⟨below, added, h⟩ := h
  have hassoc : scope ++ [(name, r)] ++ added = scope ++ (name, r) :: added := by
    rw [List.append_assoc, List.singleton_append]
  refine ⟨below, (name, r) :: added, h.path_eq, hassoc ▸ h.trace_eq, hnames h.lead_mem,
    hall h.name_mem, ?_, ?_⟩
  · exact List.cons_subset.mpr ⟨hname, List.Subset.trans h.added_subset hnames⟩
  · exact hassoc ▸ h.holdsBelow.mono hall

/-- A moment while the body of a loop runs is one in the iteration that the loop has just
opened in its own record. -/
theorem ShowsAt.of_body {chain body : Chain} {around : Surroundings} {scope : Scope}
    {m : Moment} {name : String} {input item : Json} {reached : LoopSummary StepResult}
    {below : Path} {added : Scope} (hnew : name ∉ Named.names scope)
    (hname : name ∈ chain.names) (hall : body.allNames ⊆ chain.allNames)
    (h : body.ShowsAt (Loop.opened name input scope reached item :: around) [] m below added) :
    chain.ShowsAt around scope m ((name, reached.iterations.length) :: below)
      [(name, .ofLoop input (reached.extend item added) none)] := by
  have hput := Named.put_of_not_mem (.ofLoop input (reached.extend item added) none) hnew
  have hinner := reached.inner?_extend name input item scope added
  rw [hput] at hinner
  have hpath := h.path_eq
  have htrace := h.trace_eq
  rw [Surroundings.path, List.append_assoc] at hpath
  rw [List.nil_append, Surroundings.fill_opened, hput] at htrace
  have hadded : Named.names added ⊆ chain.allNames :=
    List.Subset.trans (List.Subset.trans h.added_subset (names_subset_allNames body)) hall
  refine ⟨hpath, htrace, hname, hall h.name_mem, ?_, ?_⟩
  · exact List.cons_subset.mpr ⟨hname, List.nil_subset _⟩
  · exact .cons hinner hadded (h.holdsBelow.mono hall)

variable {scene : Scene} {ex : Executors σ}

theorem eq_record_or_mem {mark : Mark} {name : String} {e : StepEvaluation σ}
    {around : Surroundings} {scope : Scope} {rest : Scope → σ → List Mark}
    (hnew : name ∉ Named.names scope) (h : mark ∈ chronicleRest name e around scope rest) :
    let after := scope ++ [(name, e.result)]
    mark = .record ⟨around.path, name, e.result, around.fill after⟩ ∨
      e.result.isFailed = false ∧ mark ∈ rest after e.state := by
  rw [chronicleRest, Named.put_of_not_mem e.result hnew] at h
  rcases List.mem_cons.mp h with h | h
  · exact .inl h
  · cases hfailed : e.result.isFailed with
    | true =>
      rw [hfailed] at h
      contradiction
    | false =>
      rw [hfailed] at h
      exact .inr ⟨rfl, h⟩

theorem shows_of_mem_rest {chain rest : Chain} {mark : Mark} {m : Moment} {name : String}
    {e : StepEvaluation σ} {around : Surroundings} {scope : Scope}
    (hnew : name ∉ Named.names scope) (hname : name ∈ chain.names)
    (hnames : rest.names ⊆ chain.names) (hall : rest.allNames ⊆ chain.allNames)
    (h : mark ∈ rest.chronicle scene ex around (scope ++ [(name, e.result)]) e.state →
      rest.Shows around (scope ++ [(name, e.result)]) m)
    (hmark : mark ∈ chronicleRest name e around scope (rest.chronicle scene ex around))
    (hm : mark.moment? = some m) : chain.Shows around scope m := by
  rcases eq_record_or_mem hnew hmark with rfl | ⟨-, hmark⟩
  · cases hm
    exact shows_recorded hname around scope e.result
  · exact (h hmark).of_rest hname hnames hall

/-- What happens in a loop happens in an iteration of it. -/
theorem exists_of_mem_loop {mark : Mark} {name : String}
    {body : Surroundings → Scope → σ → Evaluation σ} {told : Surroundings → Scope → σ → List Mark}
    {around : Surroundings} {scope : Scope} {resolved : Json} {s : σ}
    (h : mark ∈ Loop.chronicle name body told around scope resolved s) :
    ∃ items, resolved = .arr items ∧
      let input := .obj [("items", resolved)]
      ∃ reached item s',
        Loop.ComesTo name input body around scope .initial items s reached item s' ∧
          let inside := told (Loop.opened name input scope reached item :: around) [] s'
          mark ∈ inside ∧
            inside.Sublist (Loop.chronicle name body told around scope resolved s) := by
  cases resolved with
  | arr items => exact ⟨items, rfl, Loop.mem_chronicleItems h⟩
  | null | bool _ | num _ | str _ | obj _ => contradiction

/-- Whatever looks or is recorded while a chain runs is a moment of the chain. The induction
is on the chain, for all surroundings. -/
theorem shows_of_mem : ∀ {chain : Chain} {around : Surroundings} {scope : Scope} {s : σ},
    chain.NamesApart → (∀ name ∈ chain.names, name ∉ Named.names scope) →
      ∀ {mark : Mark} {m : Moment}, mark ∈ chain.chronicle scene ex around scope s →
        mark.moment? = some m → chain.Shows around scope m
  | .step label task rest, around, scope, s, hapart, hnew, mark, m, hmark, hm => by
    obtain ⟨hlabel, hrest⟩ := List.forall_mem_cons.mp hnew
    have hname : label.name ∈ (step label task rest).names := List.mem_cons_self
    rcases List.mem_cons.mp hmark with rfl | hmark
    · cases hm
      exact shows_first hname around scope
    rcases List.mem_append.mp hmark with hmark | hmark
    · rw [Mark.moment?_of_mem_ofCalls hmark] at hm
      contradiction
    · exact shows_of_mem_rest hlabel hname (List.subset_cons_self ..) (List.subset_cons_self ..)
        (fun hmark => shows_of_mem hapart.2 (evaluate_leaves.new_after hapart.1 hrest) hmark hm)
        hmark hm
  | .loop label settings body rest, around, scope, s, hapart, hnew, mark, m, hmark, hm => by
    obtain ⟨hlabel, hrest⟩ := List.forall_mem_cons.mp hnew
    have hname : label.name ∈ (loop label settings body rest).names := List.mem_cons_self
    have hbody : body.allNames ⊆ (loop label settings body rest).allNames := by
      rw [allNames_loop]
      exact List.subset_cons_of_subset _ (List.subset_append_left ..)
    have hall : rest.allNames ⊆ (loop label settings body rest).allNames := by
      rw [allNames_loop]
      exact List.subset_cons_of_subset _ (List.subset_append_right ..)
    rcases List.mem_cons.mp hmark with rfl | hmark
    · cases hm
      exact shows_first hname around scope
    rcases List.mem_append.mp hmark with hmark | hmark
    · obtain ⟨items, -, reached, item, s', -, hmark, -⟩ := exists_of_mem_loop hmark
      obtain ⟨below, added, hshows⟩ := shows_of_mem hapart.2.1 (new_in_empty body) hmark hm
      exact ⟨_, _, hshows.of_body hlabel hname hbody⟩
    · exact shows_of_mem_rest hlabel hname (List.subset_cons_self ..) hall
        (fun hmark => shows_of_mem hapart.2.2 (evaluate_leaves.new_after hapart.1 hrest) hmark hm)
        hmark hm

end Chain

/-! ### One after the other -/

/-- The path of the first mark does not lead to the second. -/
def Mark.Apart (a b : Mark) : Prop :=
  ∀ m m', a.moment? = some m → b.moment? = some m' → ¬ m.path <+: m'.path

theorem Mark.apart_of_call {a : Mark} (h : a.moment? = none) (b : Mark) : a.Apart b := by
  intro m m' hm
  rw [h] at hm
  contradiction

theorem Path.frame_eq_of_prefix {path whole : Path} {f g : Frame} (hf : path ++ [f] <+: whole)
    (hg : path ++ [g] <+: whole) : f = g := by
  obtain ⟨more, rfl⟩ := hf
  obtain ⟨other, hother⟩ := hg
  rw [List.append_assoc, List.append_assoc] at hother
  have hcons : g :: other = f :: more := List.append_cancel_left hother
  exact (List.cons.inj hcons).1.symm

namespace Loop

variable {name : String} {input : Json} {body : Surroundings → Scope → σ → Evaluation σ}
  {told : Surroundings → Scope → σ → List Mark} {around : Surroundings} {scope : Scope}

theorem ComesTo.length_le {summary reached : LoopSummary StepResult} {items : List Json}
    {s s' : σ} {item : Json}
    (h : ComesTo name input body around scope summary items s reached item s') :
    summary.iterations.length ≤ reached.iterations.length := by
  obtain ⟨before, after, -, -, rfl, -⟩ := h
  exact (isPrefix_evaluateItems before summary s).length_le

/-- What holds between two marks of one iteration, and between any two that are apart, holds
between any two of the loop: the paths of two iterations part at the loop. -/
theorem pairwise_chronicleItems {R : Mark → Mark → Prop} (hapart : ∀ a b, a.Apart b → R a b)
    (hpath : ∀ around s, ∀ mark ∈ told around [] s, ∀ m, mark.moment? = some m →
      around.path <+: m.path)
    (htold : ∀ around s, (told around [] s).Pairwise R) :
    ∀ (items : List Json) (summary : LoopSummary StepResult) (s : σ),
      (chronicleItems name input body told around scope summary items s).Pairwise R
  | [], _, _ => .nil
  | item :: items, summary, s => by
    have ih := pairwise_chronicleItems hapart hpath htold items
    rw [chronicleItems]
    -- A mark of this iteration is apart from one of a later iteration, whose frame is another.
    refine List.pairwise_append.mpr ⟨htold _ _, ?_, fun a ha b hb => hapart a b ?_⟩
    · split
      · exact ih _ _
      · exact .nil
    · split at hb
      · obtain ⟨reached, next, s', hcomes, hb, -⟩ := mem_chronicleItems hb
        intro m m' hm hm' hprefix
        have hfirst := (hpath _ _ a ha m hm).trans hprefix
        have hsecond := hpath _ _ b hb m' hm'
        have hframe := Path.frame_eq_of_prefix hfirst hsecond
        have hindex : summary.iterations.length = reached.iterations.length :=
          congrArg Prod.snd hframe
        have hle : summary.iterations.length + 1 ≤ reached.iterations.length := by
          have hle := hcomes.length_le
          rwa [LoopSummary.extend, List.length_append, List.length_singleton] at hle
        omega
      · contradiction

end Loop

namespace Chain

variable {scene : Scene} {ex : Executors σ}

/-- What goes on in a loop stands in an iteration of it. -/
theorem path_of_mem_loop {body : Chain} {mark : Mark} {m : Moment} {name : String}
    {around : Surroundings} {scope : Scope} {resolved : Json} {s : σ} (hapart : body.NamesApart)
    (hmark : mark ∈ Loop.chronicle name (body.evaluate scene ex) (body.chronicle scene ex) around
      scope resolved s) (hm : mark.moment? = some m) :
    ∃ index, around.path ++ [(name, index)] <+: m.path := by
  obtain ⟨items, -, reached, item, s', -, hmark, -⟩ := exists_of_mem_loop hmark
  obtain ⟨below, added, hshows⟩ := shows_of_mem hapart (new_in_empty body) hmark hm
  exact ⟨reached.iterations.length, below, hshows.path_eq.symm⟩

theorem not_isPrefix_self (path : Path) (frame : Frame) : ¬ path ++ [frame] <+: path := by
  intro hprefix
  have hlength := hprefix.length_le
  rw [List.length_append, List.length_singleton] at hlength
  omega

/-- What follows a step in its chain stands in no iteration of the step. -/
theorem not_isPrefix_of_mem_rest {rest : Chain} {mark : Mark} {m : Moment} {name : String}
    {e : StepEvaluation σ} {around : Surroundings} {scope : Scope} (index : Nat)
    (hnew : name ∉ Named.names scope) (hname : name ∉ rest.names)
    (hrest : mark ∈ rest.chronicle scene ex around (scope ++ [(name, e.result)]) e.state →
      rest.Shows around (scope ++ [(name, e.result)]) m)
    (hmark : mark ∈ chronicleRest name e around scope (rest.chronicle scene ex around))
    (hm : mark.moment? = some m) : ¬ around.path ++ [(name, index)] <+: m.path := by
  intro hprefix
  rcases eq_record_or_mem hnew hmark with rfl | ⟨-, hmark⟩
  · cases hm
    exact not_isPrefix_self _ _ hprefix
  · obtain ⟨below, added, hshows⟩ := hrest hmark
    rw [hshows.path_eq, List.prefix_append_right_inj] at hprefix
    obtain ⟨more, rfl⟩ := hprefix
    exact hname hshows.lead_mem

end Chain

/-- A relation between what happens first and what happens later that can be told from where
it stands: it holds between marks that are apart, from the look of a step to the looks of
others, and from the recording of a step to what happens in the rest of its chain. -/
structure Mark.Positional (R : Mark → Mark → Prop) : Prop where
  apart : ∀ {a b}, a.Apart b → R a b
  look : ∀ {m b}, (∀ m', b = .look m' → m'.path = m.path → m'.name ≠ m.name) → R (.look m) b
  record : ∀ {rest : Chain} {around : Surroundings} {scope : Scope} {name : String}
    {r : StepResult} {b : Mark}, name ∉ Named.names scope → name ∉ rest.allNames →
      (∀ m, b.moment? = some m → rest.Shows around (scope ++ [(name, r)]) m) →
        R (.record ⟨around.path, name, r, around.fill (scope ++ [(name, r)])⟩) b

namespace Chain

variable {scene : Scene} {ex : Executors σ} {R : Mark → Mark → Prop}

/-- One step, what goes on inside of it, and what follows it in its chain. -/
theorem pairwise_link (h : Mark.Positional R) {rest : Chain} {name : String}
    {e : StepEvaluation σ} {around : Surroundings} {scope : Scope} {inside : List Mark}
    (hnew : name ∉ Named.names scope) (hname : name ∉ rest.allNames)
    (hpath : ∀ mark ∈ inside, ∀ m, mark.moment? = some m →
      ∃ index, around.path ++ [(name, index)] <+: m.path)
    (hshows : ∀ mark ∈ rest.chronicle scene ex around (scope ++ [(name, e.result)]) e.state,
      ∀ m, mark.moment? = some m → rest.Shows around (scope ++ [(name, e.result)]) m)
    (hinside : inside.Pairwise R)
    (hrest : (rest.chronicle scene ex around (scope ++ [(name, e.result)]) e.state).Pairwise R) :
    (.look ⟨around.path, name, around.fill scope⟩ ::
      (inside ++ chronicleRest name e around scope (rest.chronicle scene ex around))).Pairwise
        R := by
  have hown : name ∉ rest.names := fun hmem => hname (names_subset_allNames rest hmem)
  refine List.pairwise_cons.mpr ⟨fun b hb => h.look fun m' hlook hsame heq => ?_,
    List.pairwise_append.mpr ⟨hinside, ?_, fun a ha b hb => h.apart fun m m' hm hm' hprefix => ?_⟩⟩
  · subst hlook
    rcases List.mem_append.mp hb with hb | hb
    · obtain ⟨index, hprefix⟩ := hpath _ hb m' rfl
      rw [hsame] at hprefix
      exact not_isPrefix_self _ _ hprefix
    · obtain heq' | ⟨-, hb⟩ := eq_record_or_mem hnew hb
      · contradiction
      · obtain ⟨below, added, hm'⟩ := hshows _ hb m' rfl
        -- From the same scope only a step of the rest itself looks, and none has this name.
        have hbelow : below = [] := List.append_right_eq_self.mp (hm'.path_eq.symm.trans hsame)
        have hlead := hm'.lead_mem
        rw [hbelow, Path.lead, heq] at hlead
        exact hown hlead
  · rw [chronicleRest, Named.put_of_not_mem e.result hnew]
    cases e.result.isFailed with
    | true => exact List.pairwise_singleton ..
    | false => exact List.pairwise_cons.mpr ⟨fun b hb => h.record hnew hname (hshows b hb), hrest⟩
  · obtain ⟨index, hfirst⟩ := hpath a ha m hm
    exact not_isPrefix_of_mem_rest index hnew hown (fun hb => hshows b hb m' hm') hb hm'
      (hfirst.trans hprefix)

/-- **What holds by position holds throughout.** The induction is on the chain. -/
theorem pairwise_chronicle (h : Mark.Positional R) :
    ∀ (chain : Chain) (around : Surroundings) (scope : Scope) (s : σ), chain.allNames.Nodup →
      (∀ name ∈ chain.names, name ∉ Named.names scope) →
        (chain.chronicle scene ex around scope s).Pairwise R
  | .nil, _, _, _, _, _ => .nil
  | .step label task rest, around, scope, s, hnodup, hnew => by
    have hapart := namesApart_of_nodup hnodup
    rw [allNames_step, List.nodup_cons] at hnodup
    obtain ⟨hlabel, hrest⟩ := List.forall_mem_cons.mp hnew
    have hafter := fun r => evaluate_leaves.new_after (r := r) hapart.1 hrest
    refine pairwise_link h hlabel hnodup.1 ?_ ?_ ?_ ?_
    · intro mark hmark m hm
      rw [Mark.moment?_of_mem_ofCalls hmark] at hm
      contradiction
    · exact fun mark hmark m => shows_of_mem hapart.2 (hafter _) hmark
    · exact List.pairwise_of_forall_mem_list fun a ha b _ =>
        h.apart (Mark.apart_of_call (Mark.moment?_of_mem_ofCalls ha) b)
    · exact pairwise_chronicle h rest around _ _ hnodup.2 (hafter _)
  | .loop label settings body rest, around, scope, s, hnodup, hnew => by
    have hapart := namesApart_of_nodup hnodup
    rw [allNames_loop, List.nodup_cons, List.nodup_append] at hnodup
    obtain ⟨hlabel, hrest⟩ := List.forall_mem_cons.mp hnew
    have hafter := fun r => evaluate_leaves.new_after (r := r) hapart.1 hrest
    refine pairwise_link h hlabel (fun hmem => hnodup.1 (List.mem_append_right _ hmem)) ?_ ?_ ?_ ?_
    · exact fun mark hmark m => path_of_mem_loop hapart.2.1 hmark
    · exact fun mark hmark m => shows_of_mem hapart.2.2 (hafter _) hmark
    · unfold Loop.chronicle
      split
      · refine Loop.pairwise_chronicleItems (fun _ _ => h.apart) ?_ ?_ _ _ _
        · intro around s mark hmark m hm
          obtain ⟨below, added, hshows⟩ := shows_of_mem hapart.2.1 (new_in_empty body) hmark hm
          exact ⟨below, hshows.path_eq.symm⟩
        · exact fun around s => pairwise_chronicle h body around [] s hnodup.2.1 (new_in_empty body)
      · exact .nil
    · exact pairwise_chronicle h rest around _ _ hnodup.2.2.1 (hafter _)

end Chain

end Stepwise

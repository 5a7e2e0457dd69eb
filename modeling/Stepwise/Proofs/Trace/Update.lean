/-
# Recording at a place

An entry of a trace stands at a place: a path that leads to its scope, and its name there.
Recording a result at a place touches that entry and, on the way to it, one iteration of each
loop around it. Everything at a place apart from it stays, with its position. So the second of
two records at one place is what counts, and records at places apart from each other can be
made in either order, unless they bring two new names to one scope.

Key definitions: `Place`, `Place.Encloses`, `Place.Apart`, `Trace.getAt?`, `Trace.RecordedAt`.

Key theorems: `Named.put_comm`, `Scope.setInner_comm`, `Trace.scope?_modify_outer`,
`Trace.scope?_modify_apart`, `Trace.insert_comm`, `Trace.insert_updates`.
-/
import Stepwise.Proofs.Trace.Lookup

namespace Stepwise

/-! ### Entries of a list -/

namespace Named

variable {α : Type}

/-- Entries under other names stay at their positions, and none is added. -/
theorem getElem?_put_iff {name other : String} (h : other ≠ name) (a b : α) :
    ∀ (entries : Named α) (i : Nat),
      (put name a entries)[i]? = some (other, b) ↔ entries[i]? = some (other, b)
  | [], i => by cases i <;> simp [put, Ne.symm h]
  | (n, c) :: rest, i => by
    by_cases hn : n = name
    · subst hn
      cases i <;> simp [put, Ne.symm h]
    · cases i with
      | zero => simp [put, hn]
      | succ i => simpa [put, hn] using getElem?_put_iff h a b rest i

/-- Two entries can be set in either order if one of the names is there already. -/
theorem put_comm {name other : String} (h : name ≠ other) (a b : α) :
    ∀ {entries : Named α}, name ∈ names entries →
      put other b (put name a entries) = put name a (put other b entries)
  | (n, c) :: rest, hmem => by
    by_cases hn : n = name
    · subst hn
      simp [put, h]
    · by_cases ho : n = other
      · subst ho
        simp [put, hn]
      · have hrest : name ∈ names rest := by
          simpa [names, Ne.symm hn] using hmem
        simp [put, hn, ho, put_comm h a b hrest]

theorem mem_names_of_get? {name : String} {a : α} {entries : Named α}
    (h : get? entries name = some a) : name ∈ names entries :=
  List.mem_map_of_mem (f := Prod.fst) (mem_of_get? h)

end Named

/-! ### Iterations of a scope -/

namespace Scope

variable {s inner : Scope} {frame : Frame}

/-- A frame that leads somewhere names a loop and one of its iterations. -/
theorem exists_loop (hframe : (s.inner? frame).isSome) :
    ∃ r summary, Named.get? s frame.1 = some r ∧ r.loop? = some summary ∧
      frame.2 < summary.iterations.length := by
  obtain ⟨inner, hinner⟩ := Option.isSome_iff_exists.mp hframe
  obtain ⟨r, summary, hr, hl, hi⟩ := inner?_eq_some.mp hinner
  exact ⟨r, summary, hr, hl, (List.getElem?_eq_some_iff.mp hi).1⟩

theorem inner?_put_of_ne {name : String} (r : StepResult) (s : Scope) (h : name ≠ frame.1) :
    Scope.inner? (Named.put name r s) frame = s.inner? frame := by
  rw [inner?, inner?, Named.get?_put_of_ne r h]

/-- What a scope has of a loop is decided by the loop's record. -/
theorem inner?_of_get? {r : StepResult} {summary : LoopSummary StepResult}
    (hr : Named.get? s frame.1 = some r) (hl : r.loop? = some summary) :
    s.inner? frame = summary.iterations[frame.2]? := by
  rw [inner?, hr, Option.bind_some, hl, Option.bind_some]

/-- Replacing an iteration leaves every other iteration, of this loop and of others. -/
theorem inner?_setInner_of_ne {other : Frame} (hframe : (s.inner? frame).isSome)
    (h : frame ≠ other) (inner : Scope) :
    (s.setInner frame inner).inner? other = s.inner? other := by
  obtain ⟨r, summary, hr, hl, -⟩ := exists_loop hframe
  rw [setInner_eq hr hl]
  by_cases hname : frame.1 = other.1
  · have hindex : frame.2 ≠ other.2 := fun he => h (Prod.ext hname he)
    have hput := Named.get?_put_self other.1
      (r.withLoop { summary with iterations := summary.iterations.set frame.2 inner }) s
    rw [hname] at hr ⊢
    rw [inner?_of_get? hput (StepResult.loop?_withLoop ..), inner?_of_get? hr hl]
    exact List.getElem?_set_ne hindex
  · exact inner?_put_of_ne _ s hname

theorem names_setInner (hframe : (s.inner? frame).isSome) (inner : Scope) :
    Named.names (s.setInner frame inner) = Named.names s := by
  obtain ⟨r, summary, hr, hl, -⟩ := exists_loop hframe
  rw [setInner_eq hr hl, Named.names_put, if_pos (Named.mem_names_of_get? hr)]

/-- Entries other than the loop's stay at their positions. -/
theorem getElem?_setInner_iff {name : String} (hframe : (s.inner? frame).isSome)
    (h : name ≠ frame.1) (inner : Scope) (i : Nat) (e : StepResult) :
    (s.setInner frame inner)[i]? = some (name, e) ↔ s[i]? = some (name, e) := by
  obtain ⟨r, summary, hr, hl, -⟩ := exists_loop hframe
  rw [setInner_eq hr hl, Named.getElem?_put_iff h]

/-- Two iterations can be replaced in either order. -/
theorem setInner_comm {other : Frame} (hframe : (s.inner? frame).isSome)
    (hother : (s.inner? other).isSome) (h : frame ≠ other) (a b : Scope) :
    (s.setInner frame a).setInner other b = (s.setInner other b).setInner frame a := by
  obtain ⟨r, summary, hr, hl, -⟩ := exists_loop hframe
  obtain ⟨r', summary', hr', hl', -⟩ := exists_loop hother
  obtain ⟨name, i⟩ := frame
  obtain ⟨name', j⟩ := other
  by_cases hname : name = name'
  · subst hname
    have hindex : i ≠ j := fun he => h (he ▸ rfl)
    rw [setInner_eq hr hl, @setInner_eq s (name, j) r summary hr hl b,
      setInner_put s (StepResult.loop?_withLoop ..), setInner_put s (StepResult.loop?_withLoop ..)]
    simp only [StepResult.withLoop_withLoop, List.set_comm a b hindex]
  · rw [setInner_eq hr hl, setInner_eq hr' hl',
      setInner_eq ((Named.get?_put_of_ne _ hname s).trans hr') hl',
      setInner_eq ((Named.get?_put_of_ne _ (Ne.symm hname) s).trans hr) hl]
    exact Named.put_comm hname _ _ (Named.mem_names_of_get? hr)

/-- An entry and an iteration of another loop can be set in either order. -/
theorem put_setInner {name : String} (r : StepResult) (hname : name ∈ Named.names s)
    (h : name ≠ frame.1) (inner : Scope) :
    Named.put name r (s.setInner frame inner) =
      Scope.setInner (Named.put name r s) frame inner := by
  rw [setInner, setInner, Named.get?_put_of_ne r h]
  split
  · rfl
  · split
    · rfl
    · exact (Named.put_comm h _ _ hname).symm

end Scope

/-! ### Places -/

/-- Where an entry of a trace stands: the path that leads to its scope, and its name there. -/
structure Place where
  path : Path
  name : String
  deriving DecidableEq

namespace Place

/-- The path leads through an iteration of the entry at the place. -/
def OnWay (place : Place) (path : Path) : Prop :=
  ∃ index rest, path = place.path ++ (place.name, index) :: rest

/-- The second place lies below the first. -/
def Encloses (outer inner : Place) : Prop := outer.OnWay inner.path

/-- Two places, neither of which lies below the other. -/
structure Apart (a b : Place) : Prop where
  ne : a ≠ b
  not_below : ¬a.Encloses b
  not_above : ¬b.Encloses a

namespace Apart

variable {a b : Place} {frame : Frame} {path way : Path} {name other : String}

theorem symm (h : a.Apart b) : b.Apart a := ⟨h.ne.symm, h.not_above, h.not_below⟩

/-- Places apart in an iteration of which both ways lead through the same one. -/
theorem tail (h : Apart ⟨frame :: path, name⟩ ⟨frame :: way, other⟩) :
    Apart ⟨path, name⟩ ⟨way, other⟩ where
  ne he := h.ne (by cases he; rfl)
  not_below := fun ⟨index, rest, he⟩ => h.not_below ⟨index, rest, congrArg (frame :: ·) he⟩
  not_above := fun ⟨index, rest, he⟩ => h.not_above ⟨index, rest, congrArg (frame :: ·) he⟩

end Apart
end Place

/-- How two paths lie to each other. -/
theorem Path.cases_way (path other : Path) :
    other = path ∨ (∃ frame rest, other = path ++ frame :: rest) ∨
      (∃ frame rest, path = other ++ frame :: rest) ∨ ¬path <+: other ∧ ¬other <+: path := by
  by_cases hpath : path <+: other
  · obtain ⟨rest, rfl⟩ := hpath
    cases rest with
    | nil => exact .inl (List.append_nil path)
    | cons frame rest => exact .inr (.inl ⟨frame, rest, rfl⟩)
  · by_cases hother : other <+: path
    · obtain ⟨rest, rfl⟩ := hother
      cases rest with
      | nil => exact absurd ⟨[], by rw [List.append_nil, List.append_nil]⟩ hpath
      | cons frame rest => exact .inr (.inr (.inl ⟨frame, rest, rfl⟩))
    · exact .inr (.inr (.inr ⟨hpath, hother⟩))

namespace Trace

/-! ### Scopes after a change -/

variable {f : Scope → Scope}

/-- Something can be changed where there is a scope. -/
theorem isSome_modify (f : Scope → Scope) : ∀ (path : Path) (t : Scope),
    (modify t path f).isSome = (scope? t path).isSome
  | [], _ => rfl
  | frame :: rest, t => by
    rw [modify, scope?]
    cases t.inner? frame with
    | none => rfl
    | some inner => simpa using isSome_modify f rest inner

theorem modify_cons {t inner : Scope} {frame : Frame} (h : t.inner? frame = some inner)
    (rest : Path) (f : Scope → Scope) :
    modify t (frame :: rest) f = (modify inner rest f).map (t.setInner frame) := by
  rw [modify, h, Option.bind_some]

/-- A change further inside is one of the iteration that the first frame leads to. -/
theorem exists_of_modify_cons {t t' : Scope} {frame : Frame} {rest : Path}
    (h : modify t (frame :: rest) f = some t') :
    ∃ inner inner', t.inner? frame = some inner ∧ modify inner rest f = some inner' ∧
      t' = t.setInner frame inner' := by
  obtain ⟨inner, hinner, hmap⟩ := Option.bind_eq_some_iff.mp h
  obtain ⟨inner', hmodify, rfl⟩ := Option.map_eq_some_iff.mp hmap
  exact ⟨inner, inner', hinner, hmodify, rfl⟩

theorem scope?_setInner {t inner : Scope} {frame : Frame} (h : t.inner? frame = some inner)
    (inner' : Scope) (rest : Path) :
    scope? (t.setInner frame inner') (frame :: rest) = scope? inner' rest := by
  rw [scope?, Scope.inner?_setInner (Option.isSome_of_eq_some h), Option.bind_some]

/-- The scope that is changed. -/
theorem scope?_modify : ∀ {path : Path} {t t' : Scope}, modify t path f = some t' →
    ∃ scope, scope? t path = some scope ∧ scope? t' path = some (f scope)
  | [], t, t', h => ⟨t, rfl, h.symm⟩
  | frame :: rest, t, t', h => by
    obtain ⟨inner, inner', hinner, hmodify, rfl⟩ := exists_of_modify_cons h
    obtain ⟨scope, hscope, hscope'⟩ := scope?_modify hmodify
    refine ⟨scope, by rw [scope?, hinner, Option.bind_some, hscope], ?_⟩
    rw [scope?_setInner hinner, hscope']

/-- A scope around the one that is changed: the iteration that leads there is replaced. -/
theorem scope?_modify_outer {frame : Frame} {rest : Path} : ∀ {outer : Path} {t t' : Scope},
    modify t (outer ++ frame :: rest) f = some t' →
      ∃ scope inner, scope? t outer = some scope ∧ (scope.inner? frame).isSome ∧
        scope? t' outer = some (scope.setInner frame inner)
  | [], t, t', h => by
    obtain ⟨inner, inner', hinner, -, rfl⟩ := exists_of_modify_cons h
    exact ⟨t, inner', rfl, Option.isSome_of_eq_some hinner, rfl⟩
  | first :: outer, t, t', h => by
    obtain ⟨inner, inner', hinner, hmodify, rfl⟩ := exists_of_modify_cons h
    obtain ⟨scope, last, hscope, hframe, hscope'⟩ := scope?_modify_outer hmodify
    refine ⟨scope, last, by rw [scope?, hinner, Option.bind_some, hscope], hframe, ?_⟩
    rw [scope?_setInner hinner, hscope']

/-- A scope on another way is the same. -/
theorem scope?_modify_apart : ∀ {path other : Path} {t t' : Scope}, modify t path f = some t' →
    ¬path <+: other → ¬other <+: path → scope? t' other = scope? t other
  | [], other, _, _, _, hnot, _ => absurd (List.nil_prefix) hnot
  | _ :: _, [], _, _, _, _, hnot => absurd (List.nil_prefix) hnot
  | frame :: rest, first :: other, t, t', h, hnot, hnot' => by
    obtain ⟨inner, inner', hinner, hmodify, rfl⟩ := exists_of_modify_cons h
    by_cases hframe : frame = first
    · subst hframe
      have hrest : ¬rest <+: other := fun hp => hnot (List.cons_prefix_cons.mpr ⟨rfl, hp⟩)
      have hother : ¬other <+: rest := fun hp => hnot' (List.cons_prefix_cons.mpr ⟨rfl, hp⟩)
      rw [scope?_setInner hinner, scope?_modify_apart hmodify hrest hother, scope?, hinner,
        Option.bind_some]
    · have hsome := Option.isSome_of_eq_some hinner
      rw [scope?, scope?, Scope.inner?_setInner_of_ne hsome hframe]

/-! ### Changing twice -/

/-- Two changes inside one iteration. -/
theorem bind_modify_cons {t inner : Scope} {frame : Frame} (h : t.inner? frame = some inner)
    (path way : Path) (f g : Scope → Scope) :
    (modify t (frame :: path) f).bind (modify · (frame :: way) g) =
      ((modify inner path f).bind (modify · way g)).map (t.setInner frame) := by
  rw [modify_cons h]
  cases modify inner path f with
  | none => rfl
  | some inner' =>
    have hset : (t.setInner frame inner').setInner frame = t.setInner frame :=
      funext fun last => Scope.setInner_setInner t frame inner' last
    rw [Option.map_some, Option.bind_some, Option.bind_some,
      modify_cons (Scope.inner?_setInner (by rw [h]; rfl) inner'), hset]

/-- A change inside one iteration and one inside another. -/
theorem bind_modify_of_ne {t inner inner' : Scope} {frame first : Frame} {path way : Path}
    {f g : Scope → Scope} (h : t.inner? frame = some inner) (h' : t.inner? first = some inner')
    (hne : frame ≠ first) :
    (modify t (frame :: path) f).bind (modify · (first :: way) g) =
      (modify inner path f).bind fun a =>
        (modify inner' way g).map fun b => (t.setInner frame a).setInner first b := by
  rw [modify_cons h]
  cases modify inner path f with
  | none => rfl
  | some a =>
    have hinner : (t.setInner frame a).inner? first = some inner' :=
      (Scope.inner?_setInner_of_ne (Option.isSome_of_eq_some h) hne a).trans h'
    exact modify_cons hinner way g

theorem modify_modify (f g : Scope → Scope) : ∀ (path : Path) (t : Scope),
    (modify t path f).bind (modify · path g) = modify t path (g ∘ f)
  | [], _ => rfl
  | frame :: rest, t => by
    cases h : t.inner? frame with
    | none => rw [modify, modify, h, Option.bind_none, Option.bind_none, Option.bind_none]
    | some inner => rw [bind_modify_cons h, modify_modify f g rest inner, modify_cons h]

/-- The second of two records at one place is what counts. -/
theorem insert_insert (t : Trace) (path : Path) (name : String) (r r' : StepResult) :
    (insert t path name r).bind (insert · path name r') = insert t path name r' := by
  have hput : Named.put name r' ∘ Named.put name r = Named.put name r' :=
    funext fun scope => Named.put_put name r r' scope
  exact (modify_modify _ _ path t).trans (by rw [hput, insert])

section

variable {name other : String} {r r' : StepResult}

/-- A record at the top and one further inside, below another entry. -/
theorem insert_comm_top {frame : Frame} {way : Path} {t : Trace}
    (h : Place.Apart ⟨[], name⟩ ⟨frame :: way, other⟩) (hname : (getExact? t [] name).isSome)
    (hother : (getExact? t (frame :: way) other).isSome) :
    (insert t [] name r).bind (insert · (frame :: way) other r') =
      (insert t (frame :: way) other r').bind (insert · [] name r) := by
  have hne : name ≠ frame.1 := fun he => h.not_below ⟨frame.2, way, by rw [he]; rfl⟩
  obtain ⟨e, he⟩ := Option.isSome_iff_exists.mp hname
  obtain ⟨e', he'⟩ := Option.isSome_iff_exists.mp hother
  rw [getExact?_cons] at he'
  obtain ⟨inner, hinner, -⟩ := Option.bind_eq_some_iff.mp he'
  have hput : Scope.inner? (Named.put name r t) frame = some inner :=
    (Scope.inner?_put_of_ne r t hne).trans hinner
  have hfirst : (insert t [] name r).bind (insert · (frame :: way) other r') =
      (modify inner way (Named.put other r')).map (Scope.setInner (Named.put name r t) frame) :=
    modify_cons hput way _
  have hsecond : insert t (frame :: way) other r' =
      (modify inner way (Named.put other r')).map (t.setInner frame) := modify_cons hinner way _
  rw [hfirst, hsecond]
  cases modify inner way (Named.put other r') with
  | none => rfl
  | some inner' =>
    exact congrArg some (Scope.put_setInner r (Named.mem_names_of_get? he) hne inner').symm

/-- Records at places apart can be made in either order, if there are entries already. The
induction is along the way that both paths have in common. -/
theorem insert_comm : ∀ {path way : Path} {t : Trace}, Place.Apart ⟨path, name⟩ ⟨way, other⟩ →
    (getExact? t path name).isSome → (getExact? t way other).isSome →
      (insert t path name r).bind (insert · way other r') =
        (insert t way other r').bind (insert · path name r)
  | [], [], t, h, hname, _ => by
    have hne : name ≠ other := fun he => h.ne (he ▸ rfl)
    obtain ⟨e, he⟩ := Option.isSome_iff_exists.mp hname
    exact congrArg some (Named.put_comm hne r r' (Named.mem_names_of_get? he))
  | [], _ :: _, _, h, hname, hother => insert_comm_top h hname hother
  | _ :: _, [], _, h, hname, hother => (insert_comm_top h.symm hother hname).symm
  | frame :: path, first :: way, t, h, hname, hother => by
    obtain ⟨e, he⟩ := Option.isSome_iff_exists.mp hname
    obtain ⟨e', he'⟩ := Option.isSome_iff_exists.mp hother
    rw [getExact?_cons] at he he'
    obtain ⟨inner, hinner, he⟩ := Option.bind_eq_some_iff.mp he
    obtain ⟨inner', hinner', he'⟩ := Option.bind_eq_some_iff.mp he'
    by_cases hframe : frame = first
    · subst hframe
      obtain rfl : inner = inner' := Option.some.inj (hinner.symm.trans hinner')
      have ih := insert_comm h.tail (Option.isSome_of_eq_some he) (Option.isSome_of_eq_some he')
      simp only [insert] at ih ⊢
      rw [bind_modify_cons hinner, bind_modify_cons hinner, ih]
    · simp only [insert]
      rw [bind_modify_of_ne hinner hinner' hframe,
        bind_modify_of_ne hinner' hinner (Ne.symm hframe)]
      cases modify inner path (Named.put name r) with
      | none => cases modify inner' way (Named.put other r') <;> rfl
      | some a =>
        cases modify inner' way (Named.put other r') with
        | none => rfl
        | some b =>
          exact congrArg some (Scope.setInner_comm (Option.isSome_of_eq_some hinner)
            (Option.isSome_of_eq_some hinner') hframe a b)

end

/-! ### What one record changes -/

/-- The entry at a position of the scope that a path leads to, with its name. -/
def getAt? (t : Trace) (path : Path) (i : Nat) : Option (String × StepResult) :=
  (scope? t path).bind (·[i]?)

/-- A trace in which a result has been recorded at a place, beside the trace before. -/
structure RecordedAt (place : Place) (r : StepResult) (t t' : Trace) : Prop where
  found : getExact? t' place.path place.name = some r
  /-- In its scope a new name comes last, and a known one keeps its position. -/
  names : ∃ scope scope', scope? t place.path = some scope ∧
    scope? t' place.path = some scope' ∧
      Named.names scope' =
        if place.name ∈ Named.names scope then Named.names scope
        else Named.names scope ++ [place.name]
  /-- A loop around the scope has another scope in the iteration that leads there, and nothing
  else in its record has changed. -/
  around : ∀ outer : Place, ∀ index rest, place.path = outer.path ++ (outer.name, index) :: rest →
    ∃ e summary inner, getExact? t outer.path outer.name = some e ∧ e.loop? = some summary ∧
      index < summary.iterations.length ∧
        getExact? t' outer.path outer.name =
          some (e.withLoop { summary with iterations := summary.iterations.set index inner })
  /-- Everything at places apart is what it was, where it was. -/
  kept : ∀ other : Place, other.Apart place → ∀ i e,
    getAt? t other.path i = some (other.name, e) ↔ getAt? t' other.path i = some (other.name, e)
  /-- All other scopes that do not lie below have the names they had, in order. -/
  order : ∀ path, path ≠ place.path → ¬place.OnWay path →
    (scope? t' path).map Named.names = (scope? t path).map Named.names

/-- What becomes of a scope other than the one of the record, if it does not lie below it: it
stays, or an iteration in it that leads to the record is replaced. -/
theorem scope?_insert {place : Place} {r : StepResult} {t t' : Trace} {path : Path}
    (h : insert t place.path place.name r = some t') (hne : path ≠ place.path)
    (hway : ¬place.OnWay path) :
    scope? t' path = scope? t path ∨
      ∃ frame rest scope inner, place.path = path ++ frame :: rest ∧
        scope? t path = some scope ∧ (scope.inner? frame).isSome ∧
          scope? t' path = some (scope.setInner frame inner) := by
  rcases Path.cases_way place.path path with rfl | ⟨frame, rest, rfl⟩ | ⟨frame, rest, hpath⟩ |
      ⟨hnot, hnot'⟩
  · exact absurd rfl hne
  · have hname : place.name ≠ frame.1 := fun he => hway ⟨frame.2, rest, by rw [he]⟩
    obtain ⟨scope, hscope, hscope'⟩ := scope?_modify h
    left
    rw [scope?_append, scope?_append, hscope, hscope', Option.bind_some, Option.bind_some, scope?,
      scope?, Scope.inner?_put_of_ne r scope hname]
  · rw [insert, hpath] at h
    obtain ⟨scope, inner, hscope, hframe, hscope'⟩ := scope?_modify_outer h
    exact .inr ⟨frame, rest, scope, inner, hpath, hscope, hframe, hscope'⟩
  · exact .inl (scope?_modify_apart h hnot hnot')

theorem recordedAt_of_insert {place : Place} {r : StepResult} {t t' : Trace}
    (h : insert t place.path place.name r = some t') : RecordedAt place r t t' := by
  obtain ⟨scope, hscope, hscope'⟩ := scope?_modify h
  refine ⟨?_, ?_, fun outer index rest hpath => ?_, fun other hother i e => ?_,
    fun path hne hway => ?_⟩
  · rw [getExact?, hscope', Option.bind_some, Named.get?_put_self]
  · exact ⟨scope, _, hscope, hscope', Named.names_put ..⟩
  · rw [insert, hpath] at h
    obtain ⟨scope, inner, hscope, hframe, hscope'⟩ := scope?_modify_outer h
    obtain ⟨e, summary, he, hl, hlt⟩ := Scope.exists_loop hframe
    refine ⟨e, summary, inner, ?_, hl, hlt, ?_⟩
    · rw [getExact?, hscope, Option.bind_some, he]
    · rw [getExact?, hscope', Option.bind_some, Scope.setInner_eq he hl, Named.get?_put_self]
  · by_cases hpath : other.path = place.path
    · have hname : other.name ≠ place.name := fun he => hother.ne (by
        cases other
        cases place
        simp_all)
      rw [getAt?, getAt?, hpath, hscope, hscope', Option.bind_some, Option.bind_some,
        Named.getElem?_put_iff hname]
    · rcases scope?_insert h hpath hother.not_above with hsame |
          ⟨frame, rest, outer, inner, hway, houter, hframe, houter'⟩
      · rw [getAt?, getAt?, hsame]
      · have hname : other.name ≠ frame.1 := fun he =>
          hother.not_below ⟨frame.2, rest, by rw [he]; exact hway⟩
        rw [getAt?, getAt?, houter, houter', Option.bind_some, Option.bind_some,
          Scope.getElem?_setInner_iff hframe hname]
  · rcases scope?_insert h hne hway with hsame | ⟨frame, rest, outer, inner, -, houter, hframe,
        houter'⟩
    · rw [hsame]
    · rw [houter, houter', Option.map_some, Option.map_some, Scope.names_setInner hframe]

/-- **Recording is a well-behaved update.** For every trace, place and result: something is
recorded exactly if there is a scope at the path, and otherwise the trace stays as it is.
Afterwards the result is found at the place; its scope has the old names in the old order,
and the name at the end if it is new; of a loop around it only the iteration on the way has
changed; and everything at places apart keeps its value and its position. The second of two
records at one place is what counts, and records at two places apart, at which there is
something already, can be made in either order. -/
theorem insert_updates (t : Trace) (place : Place) (r : StepResult) :
    let t₁ := insert t place.path place.name r
    t₁.isSome = (scope? t place.path).isSome ∧ (t₁.isSome = false → t₁.getD t = t) ∧
      (∀ t', t₁ = some t' → RecordedAt place r t t') ∧
      (∀ r', t₁.bind (insert · place.path place.name r') =
        insert t place.path place.name r') ∧
      ∀ (other : Place) r', place.Apart other → (getExact? t place.path place.name).isSome →
        (getExact? t other.path other.name).isSome →
          t₁.bind (insert · other.path other.name r') =
            (insert t other.path other.name r').bind (insert · place.path place.name r) := by
  intro t₁
  refine ⟨isSome_modify _ place.path t, fun hnone => ?_, fun t' h => recordedAt_of_insert h,
    insert_insert t place.path place.name r, fun other r' hapart => insert_comm hapart⟩
  rw [Option.isSome_eq_false_iff, Option.isNone_iff_eq_none] at hnone
  rw [hnone, Option.getD_none]

/-- Two new names stand in the order of their records. -/
example (r : StepResult) :
    ((insert [] [] "a" r).bind (insert · [] "b" r)).map Named.names = some ["a", "b"] ∧
      ((insert [] [] "b" r).bind (insert · [] "a" r)).map Named.names = some ["b", "a"] :=
  ⟨rfl, rfl⟩

end Trace
end Stepwise

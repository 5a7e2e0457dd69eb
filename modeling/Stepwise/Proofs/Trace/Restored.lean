/-
# Traces that are read back

A trace that is turned into a value and read again comes back with the same steps under the
same names: input, status, message and duration of each are as they were, a loop is a loop
again and everything else a plain output, however much it looks like a record or a summary.
Two things differ. A current item that is null counts as none. And the names of a scope come
back in the order of the alphabet, as the keys of a value have no other.

Key definitions: `Trace.WellFormed`, `StepResult.ComesBackAs`, `Scope.ComesBackAs`.
Key theorems: `Scope.decode_value`, `StepResult.decode_value`, `Trace.exists_decode_value`.
-/
import Stepwise.Proofs.Trace.Record

namespace Stepwise

open Json (DecodeError)

/-! ### Traces as they can be -/

mutual

/-- Values are canonical, numbers are below `2 ^ 64`, and no two steps of a scope share a
name, neither here nor in the iterations of a loop. -/
def StepResult.WellFormed : StepResult → Prop
  | ⟨input, .value v, _, _, duration⟩ =>
    input.Canonical ∧ v.Canonical ∧ duration < 18446744073709551616
  | ⟨input, .loop ⟨current, item, iterations⟩, _, _, duration⟩ =>
    input.Canonical ∧ duration < 18446744073709551616 ∧ current < 18446744073709551616 ∧
      (∀ v ∈ item, v.Canonical) ∧ iterationsWellFormed iterations

def iterationsWellFormed : List (List (String × StepResult)) → Prop
  | [] => True
  | scope :: rest =>
    (Named.names scope).Nodup ∧ stepsWellFormed scope ∧ iterationsWellFormed rest

def stepsWellFormed : List (String × StepResult) → Prop
  | [] => True
  | (_, r) :: rest => r.WellFormed ∧ stepsWellFormed rest

end

theorem nodup_of_iterationsWellFormed : ∀ {iterations : List Scope},
    iterationsWellFormed iterations → ∀ scope ∈ iterations, (Named.names scope).Nodup
  | [], _ => by simp
  | _ :: _, ⟨hnodup, _, hrest⟩ =>
    List.forall_mem_cons.mpr ⟨hnodup, nodup_of_iterationsWellFormed hrest⟩

/-- A trace in which every scope names its steps apart and every step is well formed. -/
def Trace.WellFormed (t : Trace) : Prop := (Named.names t).Nodup ∧ stepsWellFormed t

/-! ### What comes back -/

mutual

/-- The second record is the first one read back from a value. -/
def StepResult.ComesBackAs : StepResult → StepResult → Prop
  | ⟨input, .value v, status, message, duration⟩, back =>
    back = ⟨input, .value v, status, message, duration⟩
  | ⟨input, .loop ⟨current, item, iterations⟩, status, message, duration⟩, back =>
    ∃ scopes, back =
        ⟨input, .loop ⟨current, item.filter (· ≠ .null), scopes⟩, status, message, duration⟩ ∧
      iterationsComeBackAs iterations scopes

/-- There are as many iterations, each with the same names, now in order, and with the steps
of each name read back. -/
def iterationsComeBackAs :
    List (List (String × StepResult)) → List (List (String × StepResult)) → Prop
  | [], back => back = []
  | scope :: rest, back =>
    ∃ first more, back = first :: more ∧ (Named.names first).Perm (Named.names scope) ∧
      (Named.names first).Pairwise (· < ·) ∧ stepsComeBackIn first scope ∧
      iterationsComeBackAs rest more

/-- Every step has the record that it is read back as under its name. -/
def stepsComeBackIn (back : List (String × StepResult)) : List (String × StepResult) → Prop
  | [] => True
  | (name, r) :: rest =>
    (∃ r', Named.get? back name = some r' ∧ r.ComesBackAs r') ∧ stepsComeBackIn back rest

end

/-- The second scope has the names of the first one, in order, and its steps read back. -/
def Scope.ComesBackAs (scope back : Scope) : Prop :=
  (Named.names back).Perm (Named.names scope) ∧ (Named.names back).Pairwise (· < ·) ∧
    stepsComeBackIn back scope

theorem stepsComeBackIn_iff {back : Scope} : ∀ {scope : Scope},
    stepsComeBackIn back scope ↔
      ∀ e ∈ scope, ∃ r', Named.get? back e.1 = some r' ∧ e.2.ComesBackAs r'
  | [] => by simp [stepsComeBackIn]
  | (name, r) :: rest => by
    rw [stepsComeBackIn, stepsComeBackIn_iff, List.forall_mem_cons]

/-! ### One scope -/

theorem exists_forall₂ {α β : Type} {R : α → β → Prop} : ∀ {l : List α},
    (∀ a ∈ l, ∃ b, R a b) → ∃ l', List.Forall₂ R l l'
  | [], _ => ⟨[], .nil⟩
  | a :: l, h => by
    obtain ⟨⟨b, hb⟩, hl⟩ := List.forall_mem_cons.mp h
    obtain ⟨l', hl'⟩ := exists_forall₂ hl
    exact ⟨b :: l', .cons hb hl'⟩

theorem exists_mem_of_forall₂ {α β : Type} {R : α → β → Prop} {l : List α} {l' : List β}
    (h : List.Forall₂ R l l') {a : α} (ha : a ∈ l) : ∃ b ∈ l', R a b := by
  induction h with
  | nil => exact absurd ha List.not_mem_nil
  | cons hab _ ih =>
    rcases List.mem_cons.mp ha with rfl | ha
    · exact ⟨_, List.mem_cons_self, hab⟩
    · obtain ⟨b, hb, hR⟩ := ih ha
      exact ⟨b, List.mem_cons_of_mem _ hb, hR⟩

theorem names_eq_of_forall₂ {α β : Type} {entries : Named α} {more : Named β}
    {R : String × α → String × β → Prop} (hR : ∀ p q, R p q → p.1 = q.1)
    (h : List.Forall₂ R entries more) : Named.names more = Named.names entries := by
  induction h with
  | nil => rfl
  | cons hpq _ ih =>
    simp only [Named.names, List.map_cons] at ih ⊢
    rw [ih, hR _ _ hpq]

/-- A scope is read back, in the order of its fields, if each of its steps is. -/
theorem exists_decodeSteps {decode : Json → Except DecodeError StepResult} {fields : Json.Fields}
    {scope : Scope} {write : StepResult → Json}
    (hfields : fields.Perm (scope.map fun e => (e.1, write e.2)))
    (hnodup : (Named.names scope).Nodup) {P : StepResult → StepResult → Prop}
    (h : ∀ e ∈ scope, ∃ r', decode (write e.2) = .ok r' ∧ P e.2 r') :
    ∃ back, decodeSteps decode (.obj fields) = .ok back ∧
      Named.names back = Named.names fields ∧
      ∀ e ∈ scope, ∃ r', Named.get? back e.1 = some r' ∧ P e.2 r' := by
  have hdecode : ∀ p ∈ fields, ∃ q : String × StepResult, p.1 = q.1 ∧ decode p.2 = .ok q.2 := by
    intro p hp
    obtain ⟨e, he, rfl⟩ := List.mem_map.mp (hfields.mem_iff.mp hp)
    obtain ⟨r', hr', -⟩ := h e he
    exact ⟨(e.1, r'), rfl, hr'⟩
  obtain ⟨back, hback⟩ := exists_forall₂ hdecode
  have hnames : Named.names back = Named.names fields :=
    names_eq_of_forall₂ (fun p q hpq => hpq.1) hback
  have hnodup' : (Named.names back).Nodup := by
    have hperm := hfields.map Prod.fst
    rw [List.map_map] at hperm
    rw [hnames]
    exact hperm.nodup_iff.mpr hnodup
  refine ⟨back, decodeSteps_obj hback hnodup', hnames, fun e he => ?_⟩
  have hmem : (e.1, write e.2) ∈ fields := hfields.mem_iff.mpr (List.mem_map.mpr ⟨e, he, rfl⟩)
  obtain ⟨⟨name, r⟩, hr, rfl, hread⟩ := exists_mem_of_forall₂ hback hmem
  obtain ⟨r', hr', hP⟩ := h e he
  have hsame : r' = r := Except.ok.inj (hr'.symm.trans hread)
  exact ⟨r, Named.get?_of_mem hnodup' hr, hsame ▸ hP⟩

/-- A scope is read back from a value if each of its steps is. -/
theorem Scope.decode_value {decode : Json → Except DecodeError StepResult} {scope : Scope}
    (hnodup : (Named.names scope).Nodup)
    (h : ∀ e ∈ scope, ∃ r', decode e.2.value = .ok r' ∧ e.2.ComesBackAs r') :
    ∃ back, decodeSteps decode (Trace.value scope) = .ok back ∧ scope.ComesBackAs back := by
  have hperm := canonicalFields_stepsWritten_perm hnodup
  obtain ⟨back, hback, hnames, hsteps⟩ := exists_decodeSteps hperm hnodup h
  refine ⟨back, hback, ?_, ?_, stepsComeBackIn_iff.mpr hsteps⟩
  · rw [hnames]
    have hmap := hperm.map Prod.fst
    rw [List.map_map] at hmap
    exact hmap
  · rw [hnames]
    exact List.pairwise_map.mpr (Json.pairwise_canonicalFields _)

/-! ### All scopes -/

/-- How a record of a step, as a value, is read. -/
theorem decodeResult_frame {input : Json} (hinput : input.canonical = input) (output : Json)
    (marked : Bool) (status : Status) (message : Option String) {durationMs : Nat}
    (hduration : durationMs < 18446744073709551616) (fuel : Nat) :
    decodeResult (fuel + 1) .value
        (StepResult.frame input (markFields marked) output status message durationMs).canonical =
      if marked then
        (decodeSummary .value (decodeResult fuel .value) output.canonical).map fun summary =>
          ⟨input, .loop summary, status, message, durationMs⟩
      else .ok ⟨input, .value output.canonical, status, message, durationMs⟩ := by
  obtain ⟨fields, hfields, hnodup, hrecord, -⟩ :=
    exists_frame input marked output status message durationMs
  rw [hfields, Json.canonical, decodeResult_obj (hrecord.canonical hnodup) hduration (by simp),
    Json.canonical_canonical, Json.canonical_canonical, hinput]

/-- A step nests less deep than its scope. -/
theorem depth_lt_of_mem {scope : Scope} {e : String × StepResult}
    (hnodup : (Named.names scope).Nodup) (he : e ∈ scope) :
    e.2.value.depth < (Trace.value scope).depth := by
  refine Json.depth_lt_of_get? e.1 ?_
  show Named.get? (Json.canonicalFields (stepsWritten scope)) e.1 = _
  rw [Json.get?_canonicalFields (by rwa [names_stepsWritten]), stepsWritten_eq_map,
    Named.get?_map, Named.get?_of_mem hnodup he]
  rfl

/-- A step in an iteration nests less deep than the record of the loop. -/
theorem depth_lt_of_loop? {r : StepResult} {summary : LoopSummary StepResult} {scope : Scope}
    {e : String × StepResult} (hloop : r.loop? = some summary) (hscope : scope ∈ summary.iterations)
    (hnodup : (Named.names scope).Nodup) (he : e ∈ scope) : e.2.value.depth < r.value.depth := by
  have houtput : summary.value.depth < r.value.depth := by
    obtain ⟨input, output, status, message, duration⟩ := r
    cases output with
    | value v => contradiction
    | loop s =>
      obtain rfl : s = summary := Option.some.inj hloop
      obtain ⟨fields, hfields, hnames, hrecord, -⟩ :=
        exists_frame input true s.written status message duration
      have hvalue : StepResult.value ⟨input, .loop s, status, message, duration⟩ =
          .obj (Json.canonicalFields fields) := congrArg Json.canonical hfields
      rw [hvalue]
      exact Json.depth_lt_of_get? "output" (hrecord.canonical hnames).output
  obtain ⟨summaryFields, hsummary, -, -, hiterations⟩ := summary.exists_value
  have hlist : (Json.arr (summary.iterations.map Trace.value)).depth < summary.value.depth := by
    rw [hsummary]
    exact Json.depth_lt_of_get? "iterations" hiterations
  have hitem : (Trace.value scope).depth <
      (Json.arr (summary.iterations.map Trace.value)).depth :=
    Json.depth_lt_of_item (List.mem_map.mpr ⟨scope, hscope, rfl⟩)
  have hstep := depth_lt_of_mem hnodup he
  omega

mutual

/-- A record is read back from a value. The recursion follows the nesting of results; what
nests in a value less deep is read with less fuel. -/
theorem StepResult.decode_value : ∀ {r : StepResult} {fuel : Nat}, r.WellFormed →
    r.value.depth < fuel → ∃ back, decodeResult fuel .value r.value = .ok back ∧ r.ComesBackAs back
  | ⟨input, .value v, status, message, duration⟩, fuel, h, hfuel => by
    obtain ⟨hinput, hv, hduration⟩ := h
    obtain ⟨fuel, rfl⟩ := Nat.exists_eq_succ_of_ne_zero (Nat.ne_of_gt (Nat.zero_lt_of_lt hfuel))
    have hread := decodeResult_frame (Json.canonical_eq_self hinput) v false status message
      hduration fuel
    rw [Json.canonical_eq_self hv] at hread
    exact ⟨_, hread, rfl⟩
  | ⟨input, .loop ⟨current, item, iterations⟩, status, message, duration⟩, fuel, h, hfuel => by
    obtain ⟨hinput, hduration, hcurrent, hitem, hiterations⟩ := h
    obtain ⟨fuel, rfl⟩ := Nat.exists_eq_succ_of_ne_zero (Nat.ne_of_gt (Nat.zero_lt_of_lt hfuel))
    have hread := decodeResult_frame (Json.canonical_eq_self hinput)
      (LoopSummary.written ⟨current, item, iterations⟩) true status message hduration fuel
    obtain ⟨fields, hfields, hcurrentField, hitemField, hiterationsField⟩ :=
      LoopSummary.exists_value ⟨current, item, iterations⟩
    have hdepth : ∀ scope ∈ iterations, ∀ e ∈ scope, e.2.value.depth < fuel := by
      intro scope hscope e he
      have hnodup := nodup_of_iterationsWellFormed hiterations scope hscope
      have hlt : e.2.value.depth < (StepResult.value ⟨input, .loop ⟨current, item, iterations⟩,
        status, message, duration⟩).depth := depth_lt_of_loop? rfl hscope hnodup he
      omega
    obtain ⟨scopes, hscopes, hback⟩ := iterations_decode_value hiterations hdepth
    have hsummary := decodeSummary_obj hcurrentField hcurrent hitemField hiterationsField hscopes
    have hvalue : (LoopSummary.written ⟨current, item, iterations⟩).canonical = .obj fields :=
      hfields
    rw [if_pos rfl, hvalue, hsummary] at hread
    rw [Json.map_canonical_filter fun v hv => Json.canonical_eq_self (hitem v hv)] at hread
    exact ⟨_, hread, scopes, rfl, hback⟩

theorem iterations_decode_value : ∀ {iterations : List (List (String × StepResult))} {fuel : Nat},
    iterationsWellFormed iterations →
    (∀ scope ∈ iterations, ∀ e ∈ scope, e.2.value.depth < fuel) →
    ∃ scopes, (iterations.map Trace.value).mapM (decodeSteps (decodeResult fuel .value)) =
      .ok scopes ∧ iterationsComeBackAs iterations scopes
  | [], _, _, _ => ⟨[], rfl, rfl⟩
  | scope :: rest, fuel, h, hfuel => by
    obtain ⟨hnodup, hsteps, hrest⟩ := h
    obtain ⟨hscope, hmore⟩ := List.forall_mem_cons.mp hfuel
    obtain ⟨first, hfirst, hperm, hsorted, hback⟩ :=
      Scope.decode_value hnodup (steps_decode_value hsteps hscope)
    obtain ⟨more, hread, hmoreBack⟩ := iterations_decode_value hrest hmore
    refine ⟨first :: more, ?_, first, more, rfl, hperm, hsorted, hback, hmoreBack⟩
    rw [List.map_cons, List.mapM_cons, hfirst, hread]
    rfl

theorem steps_decode_value : ∀ {scope : List (String × StepResult)} {fuel : Nat},
    stepsWellFormed scope → (∀ e ∈ scope, e.2.value.depth < fuel) →
    ∀ e ∈ scope, ∃ r', decodeResult fuel .value e.2.value = .ok r' ∧ e.2.ComesBackAs r'
  | (name, r) :: rest, fuel, h, hfuel, e, he => by
    obtain ⟨hr, hrest⟩ := h
    obtain ⟨hfirst, hmore⟩ := List.forall_mem_cons.mp hfuel
    rcases List.mem_cons.mp he with rfl | he
    · exact StepResult.decode_value hr hfirst
    · exact steps_decode_value hrest hmore e he

end

/-- **A trace comes back.** Turned into a value and read again, a trace has the same names in
every scope, and each step has its input, its status, its message and its duration again. It
is a loop exactly if it was one, and has the same plain output, or the same iteration number
and item and as many iterations with the same steps; an item that is null counts as none. -/
theorem Trace.exists_decode_value {t : Trace} (h : t.WellFormed) :
    ∃ back, Trace.decode .value t.value = .ok back ∧ Scope.ComesBackAs t back := by
  obtain ⟨hnodup, hsteps⟩ := h
  have hdepth : ∀ e ∈ t, e.2.value.depth < t.value.depth + 1 := fun e he =>
    Nat.lt_succ_of_lt (depth_lt_of_mem hnodup he)
  exact Scope.decode_value hnodup (steps_decode_value hsteps hdepth)

/-! ### A trace of look-alikes -/

namespace Mirror

/-- A plain output that looks like a loop summary, as does the input of the step. -/
def plain : StepResult :=
  ⟨.obj [("outputKind", .str loopMark)],
    .value (.obj [("currentIteration", .nat 2), ("iterations", .arr [])]), .succeeded, none, 3⟩

/-- A loop over one null, in whose iteration a loop without items follows the plain step. -/
def trace : Trace :=
  [("plain", plain),
    ("each", ⟨.obj [("items", .arr [.null])],
      .loop ⟨1, some .null,
        [[("second", plain), ("first", ⟨.obj [("items", .arr [])], .loop .initial, .failed,
          some "refused", 5⟩)]]⟩, .failed, some "refused", 8⟩)]

theorem wellFormed : trace.WellFormed := by
  simp only [trace, plain, Trace.WellFormed, stepsWellFormed, StepResult.WellFormed,
    iterationsWellFormed, LoopSummary.initial, Json.Canonical, Json.CanonicalFields,
    Json.CanonicalList, Json.nat, Option.mem_def, Option.some.injEq, forall_eq', reduceCtorEq,
    false_implies, implies_true]
  decide

end Mirror

theorem Trace.exists_decode_value_mirror : Mirror.trace.WellFormed ∧
    ∃ back, Trace.decode .value (Trace.value Mirror.trace) = .ok back ∧
      Scope.ComesBackAs Mirror.trace back :=
  ⟨Mirror.wellFormed, Trace.exists_decode_value Mirror.wellFormed⟩

end Stepwise

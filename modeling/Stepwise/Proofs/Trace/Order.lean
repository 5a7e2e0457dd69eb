/-
# The order of steps in a trace that is read

The text of a trace gives the trace back, its numbers being those of the text. At the top
the steps keep their order, as they are read from the text itself. The summary of a loop is
read through a value, whose keys have only the order of the alphabet: so in every iteration,
at any depth, the steps come back sorted by name, whatever their order of execution was.

Key definitions: `StepResult.reread`, `Trace.reread`.

Key theorems: `Trace.exists_decode_written`, `Trace.exists_ofText?`,
`Trace.names_of_text`.
-/
import Stepwise.Proofs.Flow.Accepted
import Stepwise.Proofs.Json.Reread
import Stepwise.Proofs.Trace.Restored
import Stepwise.Run.Report

namespace Stepwise

open Json (DecodeError Slots)

/-! ### The numbers of a trace -/

mutual

/-- The record with every number in its values as its own text is read. -/
def StepResult.reread : StepResult → StepResult
  | ⟨input, .value v, status, message, duration⟩ =>
    ⟨input.reread, .value v.reread, status, message, duration⟩
  | ⟨input, .loop ⟨current, item, iterations⟩, status, message, duration⟩ =>
    ⟨input.reread, .loop ⟨current, item.map Json.reread, iterationsReread iterations⟩, status,
      message, duration⟩

def iterationsReread : List (List (String × StepResult)) → List (List (String × StepResult))
  | [] => []
  | scope :: rest => stepsReread scope :: iterationsReread rest

def stepsReread : List (String × StepResult) → List (String × StepResult)
  | [] => []
  | (name, r) :: rest => (name, r.reread) :: stepsReread rest

end

/-- The trace with every number in its values as its own text is read. -/
def Trace.reread (t : Trace) : Trace := stepsReread t

theorem stepsReread_eq_map : ∀ scope : Scope,
    stepsReread scope = scope.map fun e => (e.1, e.2.reread)
  | [] => rfl
  | (name, r) :: rest => by rw [stepsReread, stepsReread_eq_map rest, List.map_cons]

theorem iterationsReread_eq_map : ∀ iterations : List Scope,
    iterationsReread iterations = iterations.map stepsReread
  | [] => rfl
  | scope :: rest => by rw [iterationsReread, iterationsReread_eq_map rest, List.map_cons]

theorem names_stepsReread (scope : Scope) :
    Named.names (stepsReread scope) = Named.names scope := by
  rw [stepsReread_eq_map, Named.names, Named.names, List.map_map]
  rfl

mutual

theorem StepResult.WellFormed.reread : ∀ {r : StepResult}, r.WellFormed → r.reread.WellFormed
  | ⟨_, .value _, _, _, _⟩, ⟨hinput, hv, hduration⟩ => ⟨hinput.reread, hv.reread, hduration⟩
  | ⟨_, .loop ⟨_, item, _⟩, _, _, _⟩, ⟨hinput, hduration, hcurrent, hitem, hiterations⟩ => by
    refine ⟨hinput.reread, hduration, hcurrent, ?_, iterationsWellFormed_reread hiterations⟩
    intro v hv
    obtain ⟨w, hw, rfl⟩ := Option.map_eq_some_iff.mp hv
    exact (hitem w hw).reread

theorem iterationsWellFormed_reread : ∀ {iterations : List (List (String × StepResult))},
    iterationsWellFormed iterations → iterationsWellFormed (iterationsReread iterations)
  | [], _ => trivial
  | scope :: _, ⟨hnodup, hscope, hrest⟩ =>
    ⟨(names_stepsReread scope).symm ▸ hnodup, stepsWellFormed_reread hscope,
      iterationsWellFormed_reread hrest⟩

theorem stepsWellFormed_reread : ∀ {scope : List (String × StepResult)},
    stepsWellFormed scope → stepsWellFormed (stepsReread scope)
  | [], _ => trivial
  | (_, _) :: _, ⟨hr, hrest⟩ => ⟨hr.reread, stepsWellFormed_reread hrest⟩

end

theorem Json.reread_nat {n : Nat} (h : n < 18446744073709551616) :
    (Json.nat n).reread = .nat n := by
  have hrange : (Json.Number.int n).InRange := ⟨by omega, by exact_mod_cast h⟩
  rw [Json.nat, Json.reread, Json.Number.reread_int hrange]

/-- A record that is reread is written as its text is read. -/
theorem StepResult.reread_frame (input : Json) (marked : Bool) (output : Json) (status : Status)
    (message : Option String) {durationMs : Nat} (h : durationMs < 18446744073709551616) :
    (StepResult.frame input (markFields marked) output status message durationMs).reread =
      StepResult.frame input.reread (markFields marked) output.reread status message
        durationMs := by
  cases marked <;> cases message <;>
    simp [StepResult.frame, markFields, Json.reread, Json.rereadFields, Json.reread_nat h]

theorem LoopSummary.reread_frame {current : Nat} (h : current < 18446744073709551616)
    (item : Option Json) (scopes : List Json) :
    (LoopSummary.frame current item scopes).reread =
      LoopSummary.frame current (item.map Json.reread) (Json.rereadList scopes) := by
  cases item <;>
    simp [LoopSummary.frame, Json.reread, Json.rereadFields, Json.reread_nat h]

mutual

theorem StepResult.reread_written : ∀ {r : StepResult}, r.WellFormed →
    r.written.reread = r.reread.written
  | ⟨input, .value v, status, message, duration⟩, ⟨_, _, hduration⟩ =>
    StepResult.reread_frame input false v status message hduration
  | ⟨input, .loop ⟨current, item, iterations⟩, status, message, duration⟩,
      ⟨_, hduration, hcurrent, _, hiterations⟩ => by
    have hframe := StepResult.reread_frame input true
      (LoopSummary.frame current item (iterationsWritten iterations)) status message hduration
    rw [LoopSummary.reread_frame hcurrent, iterationsReread_written hiterations] at hframe
    exact hframe

theorem iterationsReread_written : ∀ {iterations : List (List (String × StepResult))},
    iterationsWellFormed iterations →
    Json.rereadList (iterationsWritten iterations) = iterationsWritten (iterationsReread iterations)
  | [], _ => rfl
  | _ :: _, ⟨_, hscope, hrest⟩ => by
    rw [iterationsWritten, Json.rereadList, iterationsReread_written hrest, Json.reread,
      stepsReread_written hscope, iterationsReread, iterationsWritten]

theorem stepsReread_written : ∀ {scope : List (String × StepResult)}, stepsWellFormed scope →
    Json.rereadFields (stepsWritten scope) = stepsWritten (stepsReread scope)
  | [], _ => rfl
  | (_, _) :: _, ⟨hr, hrest⟩ => by
    rw [stepsWritten, Json.rereadFields, StepResult.reread_written hr, stepsReread_written hrest,
      stepsReread, stepsWritten]

end

theorem StepResult.inRange_frame {input : Json} (hinput : ∀ n ∈ input.numbers, n.InRange)
    (marked : Bool) {output : Json} (houtput : ∀ n ∈ output.numbers, n.InRange) (status : Status)
    (message : Option String) {durationMs : Nat} (h : durationMs < 18446744073709551616) :
    ∀ n ∈ (StepResult.frame input (markFields marked) output status message durationMs).numbers,
      n.InRange := by
  have hduration : (Json.Number.int durationMs).InRange := ⟨by omega, by exact_mod_cast h⟩
  cases marked <;> cases message <;>
    simp only [StepResult.frame, markFields, Json.numbers, Json.numbersFields, Json.nat,
      List.append_nil, List.nil_append, List.cons_append, List.mem_append, List.mem_singleton,
      Bool.false_eq_true, if_true, if_false] <;>
    rintro n (hn | hn | rfl) <;> first | exact hinput n hn | exact houtput n hn | exact hduration

mutual

/-- What is written of a well-formed record has its numbers in range. -/
theorem StepResult.WellFormed.inRange : ∀ {r : StepResult}, r.WellFormed →
    ∀ n ∈ r.written.numbers, n.InRange
  | ⟨_, .value _, status, message, _⟩, ⟨hinput, hv, hduration⟩ =>
    StepResult.inRange_frame hinput.inRange false hv.inRange status message hduration
  | ⟨_, .loop ⟨current, item, iterations⟩, status, message, _⟩,
      ⟨hinput, hduration, hcurrent, hitem, hiterations⟩ => by
    have hscopes := iterationsWellFormed_inRange hiterations
    have hnumber : (Json.Number.int current).InRange := ⟨by omega, by exact_mod_cast hcurrent⟩
    refine StepResult.inRange_frame hinput.inRange true ?_ status message hduration
    cases item with
    | none =>
      simp only [LoopSummary.frame, Json.numbers, Json.numbersFields, Json.nat, List.append_nil,
        List.nil_append, List.cons_append, List.mem_cons]
      rintro n (rfl | hn)
      · exact hnumber
      · exact hscopes n hn
    | some v =>
      simp only [LoopSummary.frame, Json.numbers, Json.numbersFields, Json.nat, List.append_nil,
        List.nil_append, List.cons_append, List.mem_cons, List.mem_append]
      rintro n (rfl | hn | hn)
      · exact hnumber
      · exact (hitem v rfl).inRange n hn
      · exact hscopes n hn

theorem iterationsWellFormed_inRange : ∀ {iterations : List (List (String × StepResult))},
    iterationsWellFormed iterations →
    ∀ n ∈ Json.numbersList (iterationsWritten iterations), n.InRange
  | [], _ => by simp [iterationsWritten, Json.numbersList]
  | _ :: _, ⟨_, hscope, hrest⟩ =>
    List.forall_mem_append.mpr ⟨stepsWellFormed_inRange hscope, iterationsWellFormed_inRange hrest⟩

theorem stepsWellFormed_inRange : ∀ {scope : List (String × StepResult)}, stepsWellFormed scope →
    ∀ n ∈ Json.numbersFields (stepsWritten scope), n.InRange
  | [], _ => by simp [stepsWritten, Json.numbersFields]
  | (_, _) :: _, ⟨hr, hrest⟩ =>
    List.forall_mem_append.mpr ⟨hr.inRange, stepsWellFormed_inRange hrest⟩

end

/-! ### Reading what is written -/

/-- A record is read from a text as it is from its value. -/
theorem decodeResult_written {r : StepResult} (h : r.WellFormed) (fuel : Nat) :
    decodeResult (fuel + 1) .text r.written = decodeResult (fuel + 1) .value r.value := by
  have hframe : ∀ (marked : Bool) {input output : Json} {status : Status}
      {message : Option String} {durationMs : Nat}, input.Canonical →
      durationMs < 18446744073709551616 →
      let frame := StepResult.frame input (markFields marked) output status message durationMs
      decodeResult (fuel + 1) .text frame = decodeResult (fuel + 1) .value frame.canonical := by
    intro marked input output status message durationMs hinput hduration
    have hself := Json.canonical_eq_self hinput
    obtain ⟨fields, hfields, -, hrecord, hunique⟩ :=
      exists_frame input marked output status message durationMs
    simp only
    rw [decodeResult_frame hself output marked status message hduration, hfields,
      decodeResult_obj hrecord hduration (fun _ => hunique), hself]
  match r, h with
  | ⟨_, .value _, _, _, _⟩, ⟨hinput, _, hduration⟩ =>
    exact hframe false hinput hduration
  | ⟨_, .loop ⟨_, _, _⟩, _, _, _⟩, ⟨hinput, hduration, _⟩ =>
    exact hframe true hinput hduration

theorem wellFormed_of_mem : ∀ {scope : Scope}, stepsWellFormed scope →
    ∀ e ∈ scope, e.2.WellFormed
  | [], _ => by simp
  | (_, _) :: _, ⟨hr, hrest⟩ => List.forall_mem_cons.mpr ⟨hr, wellFormed_of_mem hrest⟩

/-- A trace is read from what is written of it: at the top the steps are in their order. -/
theorem Trace.exists_decode_written {t : Trace} (h : t.WellFormed) :
    ∃ back, Trace.decode .text (Trace.written t) = .ok back ∧
      Named.names back = Named.names t ∧ stepsComeBackIn back t := by
  obtain ⟨hnodup, hsteps⟩ := h
  have hperm : (stepsWritten t).Perm (t.map fun e => (e.1, e.2.written)) :=
    .of_eq (stepsWritten_eq_map t)
  have hdepth : ∀ e ∈ t, e.2.value.depth < (Trace.written t).depth + 1 := by
    intro e he
    have hmem : (e.1, e.2.written) ∈ stepsWritten t := hperm.mem_iff.mpr (List.mem_map_of_mem he)
    have hle := Json.depth_le_of_field hmem
    have hvalue := Json.depth_canonical_le e.2.written
    rw [Trace.written, Json.depth, StepResult.value]
    simp only at hle
    omega
  have hread : ∀ e ∈ t, ∃ r',
      decodeResult ((Trace.written t).depth + 1) .text e.2.written = .ok r' ∧
        e.2.ComesBackAs r' := by
    intro e he
    rw [decodeResult_written (wellFormed_of_mem hsteps e he)]
    exact steps_decode_value hsteps hdepth e he
  obtain ⟨back, hback, hnames, hsteps'⟩ := exists_decodeSteps hperm hnodup hread
  refine ⟨back, hback, ?_, stepsComeBackIn_iff.mpr hsteps'⟩
  rw [hnames, names_stepsWritten]

theorem Trace.WellFormed.reread {t : Trace} (h : t.WellFormed) : (Trace.reread t).WellFormed :=
  ⟨(names_stepsReread t).symm ▸ h.1, stepsWellFormed_reread h.2⟩

/-- A trace whose text nests within the limit is read from it, with its numbers read back. -/
theorem Trace.exists_ofText? {t : Trace} (h : t.WellFormed)
    (hdepth : (Trace.written t).depth ≤ 127) :
    ∃ back, Trace.ofText? (Trace.written t).compact = some back ∧
      Named.names back = Named.names t ∧ stepsComeBackIn back (Trace.reread t) := by
  have hread : Json.readWritten Json.depthLimit (Trace.written t).compact.toList =
      .ok (Trace.written (Trace.reread t)) := by
    have hlimit : ∀ m ∈ Json.depthLimit, (Trace.written t).depth ≤ m := by
      rintro m hm
      obtain rfl := Option.some.inj hm
      exact hdepth
    have hnumbers : ∀ n ∈ (Trace.written t).numbers, n.InRange := stepsWellFormed_inRange h.2
    rw [Json.compact, String.toList_ofList, Json.readWritten_chars hnumbers hlimit, Trace.written,
      Json.reread, stepsReread_written h.2]
    rfl
  obtain ⟨back, hback, hnames, hsteps⟩ := Trace.exists_decode_written h.reread
  refine ⟨back, ?_, hnames.trans (names_stepsReread t), hsteps⟩
  rw [Trace.ofText?, hread]
  simp only [hback]
  rfl

/-! ### Scopes in loops -/

theorem inner?_stepsReread (scope : Scope) (frame : Frame) :
    Scope.inner? (stepsReread scope) frame = (Scope.inner? scope frame).map stepsReread := by
  have hloop : ∀ r : StepResult, (r.reread.loop?).bind (·.iterations[frame.2]?) =
      ((r.loop?).bind (·.iterations[frame.2]?)).map stepsReread := by
    rintro ⟨input, v | ⟨current, item, iterations⟩, status, message, duration⟩
    · rfl
    · show (iterationsReread iterations)[frame.2]? = (iterations[frame.2]?).map stepsReread
      rw [iterationsReread_eq_map, List.getElem?_map]
  rw [Scope.inner?, Scope.inner?, stepsReread_eq_map, Named.get?_map]
  cases Named.get? scope frame.1 with
  | none => rfl
  | some r => exact hloop r

theorem scope?_reread : ∀ (path : Path) (scope : Scope),
    Trace.scope? (stepsReread scope) path = (Trace.scope? scope path).map stepsReread
  | [], _ => rfl
  | frame :: rest, scope => by
    rw [Trace.scope?, Trace.scope?, inner?_stepsReread]
    cases scope.inner? frame with
    | none => rfl
    | some inner => exact scope?_reread rest inner

theorem exists_iteration : ∀ {iterations back : List Scope} {i : Nat} {scope : Scope},
    iterationsComeBackAs iterations back → iterations[i]? = some scope →
    ∃ scope', back[i]? = some scope' ∧ scope.ComesBackAs scope'
  | first :: rest, _, 0, scope, ⟨first', more, rfl, hperm, hsorted, hsteps, hrest⟩, hi => by
    obtain rfl := Option.some.inj hi
    exact ⟨first', rfl, hperm, hsorted, hsteps⟩
  | first :: rest, _, i + 1, scope, ⟨first', more, rfl, _, _, _, hrest⟩, hi => by
    rw [List.getElem?_cons_succ] at hi ⊢
    exact exists_iteration hrest hi

/-- An iteration comes back where its loop does. -/
theorem exists_inner? {scope back inner : Scope} {frame : Frame} (h : stepsComeBackIn back scope)
    (hinner : scope.inner? frame = some inner) :
    ∃ inner', back.inner? frame = some inner' ∧ inner.ComesBackAs inner' := by
  obtain ⟨summary, hloop, hi⟩ := Option.bind_eq_some_iff.mp hinner
  obtain ⟨r, hr, hr'⟩ := Option.bind_eq_some_iff.mp hloop
  obtain ⟨r', hback, hcomes⟩ := stepsComeBackIn_iff.mp h _ (Named.mem_of_get? hr)
  match r, hr', hcomes with
  | ⟨_, .loop ⟨current, item, iterations⟩, _, _, _⟩, hr', ⟨scopes, hscopes, hiterations⟩ =>
    obtain rfl := Option.some.inj hr'
    obtain ⟨inner', hinner', hcomes'⟩ := exists_iteration hiterations hi
    refine ⟨inner', ?_, hcomes'⟩
    rw [Scope.inner?, hback, hscopes]
    exact hinner'

/-- Every scope in a loop comes back, at any depth. The induction is along the path. -/
theorem exists_scope? : ∀ {path : Path} {frame : Frame} {scope back inner : Scope},
    stepsComeBackIn back scope → Trace.scope? scope (frame :: path) = some inner →
    ∃ inner', Trace.scope? back (frame :: path) = some inner' ∧ inner.ComesBackAs inner'
  | [], frame, scope, back, inner, h, hinner => by
    obtain ⟨first, hfirst, hlast⟩ := Option.bind_eq_some_iff.mp hinner
    obtain rfl := Option.some.inj hlast
    obtain ⟨first', hfirst', hcomes⟩ := exists_inner? h hfirst
    exact ⟨first', by rw [Trace.scope?, hfirst']; rfl, hcomes⟩
  | next :: path, frame, scope, back, inner, h, hinner => by
    obtain ⟨first, hfirst, hrest⟩ := Option.bind_eq_some_iff.mp hinner
    obtain ⟨first', hfirst', -, -, hsteps⟩ := exists_inner? h hfirst
    obtain ⟨inner', hinner', hcomes⟩ := exists_scope? hsteps hrest
    exact ⟨inner', by rw [Trace.scope?, hfirst']; exact hinner', hcomes⟩

/-- **Only the top keeps its order.** A trace whose text nests within the limit is read from
it. The steps at the top are in the same order again. Those of an iteration, in any loop at
any depth, have the same names in the order of the alphabet: in the same order as before
exactly if they were executed in that order. -/
theorem Trace.names_of_text {t : Trace} (h : t.WellFormed)
    (hdepth : (Trace.written t).depth ≤ 127) :
    ∃ back, Trace.ofText? (Trace.written t).compact = some back ∧
      Named.names back = Named.names t ∧
      ∀ path scope, path ≠ [] → Trace.scope? t path = some scope →
        ∃ scope', Trace.scope? back path = some scope' ∧
          (Named.names scope').Perm (Named.names scope) ∧
          (Named.names scope').Pairwise (· < ·) ∧
          (Named.names scope' = Named.names scope ↔ (Named.names scope).Pairwise (· < ·)) := by
  obtain ⟨back, hback, hnames, hsteps⟩ := Trace.exists_ofText? h hdepth
  refine ⟨back, hback, hnames, fun path scope hpath hscope => ?_⟩
  obtain ⟨frame, rest, rfl⟩ := List.exists_cons_of_ne_nil hpath
  have hreread : Trace.scope? (Trace.reread t) (frame :: rest) = some (stepsReread scope) := by
    rw [Trace.reread, scope?_reread, hscope]
    rfl
  obtain ⟨scope', hscope', hperm, hsorted, -⟩ := exists_scope? hsteps hreread
  rw [names_stepsReread] at hperm
  refine ⟨scope', hscope', hperm, hsorted, fun heq => heq ▸ hsorted, fun hsorted' => ?_⟩
  exact hperm.eq_of_pairwise (fun a b _ _ hab hba => absurd hba (lt_asymm hab)) hsorted hsorted'

theorem Trace.names_of_text_mirror :
    Mirror.trace.WellFormed ∧ (Trace.written Mirror.trace).depth ≤ 127 ∧
      ∃ back, Trace.ofText? (Trace.written Mirror.trace).compact = some back ∧
        Named.names back = Named.names Mirror.trace ∧
        ∀ path scope, path ≠ [] → Trace.scope? Mirror.trace path = some scope →
          ∃ scope', Trace.scope? back path = some scope' ∧
            (Named.names scope').Perm (Named.names scope) ∧
            (Named.names scope').Pairwise (· < ·) ∧
            (Named.names scope' = Named.names scope ↔ (Named.names scope).Pairwise (· < ·)) :=
  ⟨Mirror.wellFormed, by decide, Trace.names_of_text Mirror.wellFormed (by decide)⟩

/-! ### A loop that does not run in the order of the alphabet -/

namespace Backwards

/-- The step "a" answers after the step "b". -/
def body : Json :=
  .obj [("kind", .str "Response"), ("name", .str "b"),
    ("nextAction", .obj [("kind", .str "Response"), ("name", .str "a"),
      ("settings", .obj [("output", .nat 1)])]),
    ("settings", .obj [("output", .nat 1)])]

/-- One iteration of these steps. -/
def each : Json :=
  .obj [("firstLoopAction", body), ("kind", .str "LoopOnItems"), ("name", .str "each"),
    ("settings", .obj [("items", .arr [.nat 1])])]

def flow : Json := .obj [("trigger", .obj [("nextAction", each)])]

def document : Json := .obj [("flow", flow)]

def chain : Chain :=
  .loop ⟨"each", none⟩ ⟨.arr [.nat 1]⟩
    (.step ⟨"b", none⟩ (.response ⟨.nat 1⟩) (.step ⟨"a", none⟩ (.response ⟨.nat 1⟩) .nil)) .nil

def job : Job := ⟨"run-1", "default", none, [], .null, ⟨.empty, .empty, chain⟩⟩

theorem accepted : Job.ofJson "run-1" document = .ok job := by
  have hchain : Chain.build each = .ok chain :=
    Chain.build_loop rfl (Chain.build_task rfl (Chain.build_task rfl rfl)) rfl
  have hunchecked : Flow.buildUnchecked flow = .ok ⟨.empty, .empty, chain⟩ := by
    show Except.bind (Except.bind (Chain.build each) _) _ = _
    rw [hchain]
    rfl
  have hflow : Flow.build flow = .ok ⟨.empty, .empty, chain⟩ :=
    Flow.build_of_check hunchecked rfl
  show Except.bind (Flow.build flow) _ = _
  rw [hflow]
  rfl

/-- What a run of the job leaves; no step makes a call. -/
def trace : Trace := (job.report Grid.strict () ⟨0, 0⟩ 0).1.trace

/-- An accepted job leaves a trace whose text has the steps of an iteration in their order of
execution, and is read with them in the other order. -/
theorem order_lost :
    Job.ofJson "run-1" document = .ok job ∧ (Trace.written trace).depth ≤ 127 ∧
      (Trace.scope? trace [("each", 0)]).map Named.names = some ["b", "a"] ∧
      ((Trace.ofText? (Trace.written trace).compact).bind (Trace.scope? · [("each", 0)])).map
        Named.names = some ["a", "b"] := by
  refine ⟨accepted, by decide +kernel, by decide +kernel, ?_⟩
  rw [Trace.ofText?, Json.compact, String.toList_ofList]
  decide +kernel

end Backwards

end Stepwise

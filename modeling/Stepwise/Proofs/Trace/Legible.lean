/-
# Traces that can be read

What a trace holds never keeps it from being read back, however it looks: values are read as
they are. It can be read if in every scope, at any depth, no two steps share a name and the
numbers are below `2 ^ 64`. The induction is on the depth of the value.

Key definitions: `Scope.Legible`, `Trace.Legible`.

Key theorems: `Trace.Legible.exists_decodeResult`, `Trace.Legible.exists_decode`.
-/
import Stepwise.Proofs.Trace.Restored

namespace Stepwise

open Json (DecodeError)

/-- The numbers in the record are such as can be read. -/
structure StepResult.Legible (r : StepResult) : Prop where
  durationMs : r.durationMs < 18446744073709551616
  currentIteration : ∀ summary, r.loop? = some summary →
    summary.currentIteration < 18446744073709551616

/-- No two steps share a name, and every record is legible. -/
structure Scope.Legible (scope : Scope) : Prop where
  nodup : (Named.names scope).Nodup
  results : ∀ e ∈ scope, e.2.Legible

/-- Every scope of the trace is legible. -/
def Trace.Legible (t : Trace) : Prop :=
  ∀ path scope, Trace.scope? t path = some scope → Scope.Legible scope

/-! ### One scope and one record -/

/-- A scope is read back from a value if each of its steps is. -/
theorem Scope.exists_decodeSteps {decode : Json → Except DecodeError StepResult} {scope : Scope}
    (hnodup : (Named.names scope).Nodup)
    (h : ∀ e ∈ scope, ∃ back, decode e.2.value = .ok back) :
    ∃ back, decodeSteps decode (Trace.value scope) = .ok back := by
  have hperm := canonicalFields_stepsWritten_perm hnodup
  have hsteps : ∀ e ∈ scope, ∃ back, decode e.2.value = .ok back ∧ True := fun e he => by
    obtain ⟨back, hback⟩ := h e he
    exact ⟨back, hback, trivial⟩
  obtain ⟨back, hback, -⟩ :=
    Stepwise.exists_decodeSteps (P := fun _ _ => True) hperm hnodup hsteps
  exact ⟨back, hback⟩

/-- A record is read back from a value if the iterations in it are. -/
theorem StepResult.Legible.exists_decodeResult {r : StepResult} (h : r.Legible) {fuel : Nat}
    (hscopes : ∀ summary, r.loop? = some summary → ∀ scope ∈ summary.iterations,
      ∃ back, decodeSteps (decodeResult fuel .value) (Trace.value scope) = .ok back) :
    ∃ back, decodeResult (fuel + 1) .value r.value = .ok back := by
  obtain ⟨input, output, status, message, durationMs⟩ := r
  cases output with
  | value v =>
    obtain ⟨fields, hfields, hnodup, hrecord, -⟩ :=
      exists_frame input false v status message durationMs
    have hvalue : StepResult.value ⟨input, .value v, status, message, durationMs⟩ =
        .obj (Json.canonicalFields fields) := congrArg Json.canonical hfields
    rw [hvalue, decodeResult_obj (hrecord.canonical hnodup) h.durationMs (by simp)]
    exact ⟨_, rfl⟩
  | loop summary =>
    obtain ⟨fields, hfields, hnodup, hrecord, -⟩ :=
      exists_frame input true summary.written status message durationMs
    have hvalue : StepResult.value ⟨input, .loop summary, status, message, durationMs⟩ =
        .obj (Json.canonicalFields fields) := congrArg Json.canonical hfields
    obtain ⟨inside, hinside, hnumber, hitem, hiterations⟩ := summary.exists_value
    obtain ⟨back, hback⟩ := exists_forall₂ (hscopes summary rfl)
    have hread : (summary.iterations.map Trace.value).mapM
        (decodeSteps (decodeResult fuel .value)) = .ok back :=
      Json.mapM_ok (List.forall₂_map_left_iff.mpr hback)
    have hcurrent := h.currentIteration summary rfl
    have hwritten : summary.written.canonical = .obj inside := hinside
    rw [hvalue, decodeResult_obj (hrecord.canonical hnodup) h.durationMs (by simp), if_pos rfl,
      Json.canonical_canonical, Json.canonical_canonical, hwritten,
      decodeSummary_obj hnumber hcurrent hitem hiterations hread]
    exact ⟨_, rfl⟩

/-! ### All scopes -/

namespace Trace.Legible

variable {t : Trace}

theorem here (h : t.Legible) : Scope.Legible t := h [] t rfl

/-- An iteration of a loop in a legible trace is legible itself. -/
theorem inner (h : t.Legible) {e : String × StepResult} (he : e ∈ t)
    {summary : LoopSummary StepResult} (hloop : e.2.loop? = some summary) {scope : Scope}
    (hscope : scope ∈ summary.iterations) : Trace.Legible scope := by
  obtain ⟨index, hindex⟩ := List.mem_iff_getElem?.mp hscope
  have hinner : Scope.inner? t (e.1, index) = some scope := by
    rw [Scope.inner?, Named.get?_of_mem h.here.nodup he, Option.bind_some, hloop,
      Option.bind_some, hindex]
  intro path found hfound
  refine h ((e.1, index) :: path) found ?_
  rw [scope?, hinner, Option.bind_some, hfound]

/-- Each step of a legible trace is read back, given fuel for what nests in it. The induction
is on the fuel, for all traces. -/
theorem exists_decodeResult : ∀ {fuel : Nat} {t : Trace}, t.Legible →
    (∀ e ∈ t, e.2.value.depth < fuel) →
      ∀ e ∈ t, ∃ back, decodeResult fuel .value e.2.value = .ok back
  | 0, _, _, hdepth, e, he => absurd (hdepth e he) (Nat.not_lt_zero _)
  | fuel + 1, t, h, hdepth, e, he => by
    refine (h.here.results e he).exists_decodeResult fun summary hloop scope hscope => ?_
    have hinner : Trace.Legible scope := h.inner he hloop hscope
    refine Scope.exists_decodeSteps hinner.here.nodup (exists_decodeResult hinner ?_)
    intro other hother
    have hlt := depth_lt_of_loop? hloop hscope hinner.here.nodup hother
    have hle := hdepth e he
    omega

/-- A legible trace is read back from its value. -/
theorem exists_decode (h : t.Legible) : ∃ back, Trace.decode .value t.value = .ok back := by
  have hdepth : ∀ e ∈ t, e.2.value.depth < t.value.depth + 1 := fun e he =>
    Nat.lt_succ_of_lt (depth_lt_of_mem h.here.nodup he)
  exact Scope.exists_decodeSteps h.here.nodup (exists_decodeResult h hdepth)

end Trace.Legible
end Stepwise

/-
# Traces as JSON

A result is written as a record: its input, a mark if it belongs to a loop, its
output, status, error message and duration. Steps are written in the order of their
scope. As a value, a trace is the canonical form of what is written. The output of a
step is read through segments; a loop's own fields are reached without turning the
whole history into a value.

Key definitions: `StepResult.written`, `Trace.written`, `Trace.value`,
`StepResult.part?`, `Trace.same`.
-/
import Stepwise.Trace.Basic

namespace Stepwise

/-- The word for a status. -/
def Status.word : Status → String
  | .succeeded => "SUCCEEDED"
  | .failed => "FAILED"

/-- The mark of a loop's result. -/
def loopMark : String := "LOOP_ON_ITEMS"

/-- The fields around the output of a record, as they are written. -/
def StepResult.frame (input : Json) (mark : Json.Fields) (output : Json) (status : Status)
    (message : Option String) (durationMs : Nat) : Json :=
  .obj <| ("input", input) :: mark ++ ("output", output) :: ("status", .str status.word) ::
    (match message with
      | some m => [("errorMessage", .str m)]
      | none => []) ++ [("durationMs", .nat durationMs)]

/-- The fields of a loop summary, as they are written. -/
def LoopSummary.frame (current : Nat) (item : Option Json) (iterations : List Json) : Json :=
  .obj <| ("currentIteration", .nat current) ::
    (match item with
      | some v => [("currentItem", v)]
      | none => []) ++ [("iterations", .arr iterations)]

mutual

/-- A result as it is written. -/
def StepResult.written : StepResult → Json
  | ⟨input, .value v, status, message, duration⟩ =>
    StepResult.frame input [] v status message duration
  | ⟨input, .loop ⟨current, item, iterations⟩, status, message, duration⟩ =>
    StepResult.frame input [("outputKind", .str loopMark)]
      (LoopSummary.frame current item (iterationsWritten iterations)) status message duration

/-- The scopes of a loop as they are written. -/
def iterationsWritten : List (List (String × StepResult)) → List Json
  | [] => []
  | s :: rest => .obj (stepsWritten s) :: iterationsWritten rest

/-- The steps of a scope as they are written. -/
def stepsWritten : List (String × StepResult) → Json.Fields
  | [] => []
  | (name, r) :: rest => (name, r.written) :: stepsWritten rest

end

/-- A loop summary as it is written. -/
def LoopSummary.written (s : LoopSummary StepResult) : Json :=
  LoopSummary.frame s.currentIteration s.currentItem (iterationsWritten s.iterations)

/-- A loop summary as a value. -/
def LoopSummary.value (s : LoopSummary StepResult) : Json := s.written.canonical

/-- A trace as it is written. -/
def Trace.written (t : Trace) : Json := .obj (stepsWritten t)

/-- A trace as a value. -/
def Trace.value (t : Trace) : Json := (Trace.written t).canonical

/-- A result as a value. -/
def StepResult.value (r : StepResult) : Json := r.written.canonical

/-- The part of a loop summary that the segments address. Nothing lies below the
number of the current iteration. -/
def LoopSummary.part? (s : LoopSummary StepResult) : List String → Option Json
  | [] => some s.value
  | "currentIteration" :: [] => some (.nat s.currentIteration)
  | "currentItem" :: rest => s.currentItem.bind (·.at? rest)
  | "iterations" :: rest => (Json.arr (iterationsWritten s.iterations)).canonical.at? rest
  | _ => none

/-- The part of a step's output that the segments address. -/
def StepResult.part? (r : StepResult) (segments : List String) : Option Json :=
  match r.output with
  | .value v => v.at? segments
  | .loop summary => summary.part? segments

/-- Whether two optional values are both absent or equal. -/
def Json.sameOption : Option Json → Option Json → Bool
  | none, none => true
  | some a, some b => a.same b
  | _, _ => false

mutual

/-- Whether two results are equal; the order of the steps in an iteration does not
matter. -/
def StepResult.same : StepResult → StepResult → Bool
  | ⟨input, .value v, status, message, duration⟩, r =>
    (match r.output with
      | .value w => v.same w
      | .loop _ => false) &&
      input.same r.input && status = r.status && message = r.message && duration = r.durationMs
  | ⟨input, .loop ⟨current, item, iterations⟩, status, message, duration⟩, r =>
    (match r.output with
      | .value _ => false
      | .loop s =>
        current = s.currentIteration && Json.sameOption item s.currentItem &&
          sameIterations iterations s.iterations) &&
      input.same r.input && status = r.status && message = r.message && duration = r.durationMs

/-- Whether two histories agree iteration by iteration. -/
def sameIterations :
    List (List (String × StepResult)) → List (List (String × StepResult)) → Bool
  | [], [] => true
  | s :: rest, s' :: rest' =>
    s.length = s'.length && sameSteps s s' && sameIterations rest rest'
  | _, _ => false

/-- Whether every step of the first scope has an equal one in the second. -/
def sameSteps : List (String × StepResult) → List (String × StepResult) → Bool
  | [], _ => true
  | (name, r) :: rest, s =>
    (match Named.get? s name with
      | some r' => r.same r'
      | none => false) && sameSteps rest s

end

/-- Whether two traces hold equal results under the same names. -/
def Trace.same (a b : Trace) : Bool := a.length = b.length && sameSteps a b

end Stepwise

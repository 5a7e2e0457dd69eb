/-
# Reading traces

A record is read back into a result. Whether it belongs to a loop is decided by its
mark alone; the summary of a loop is read from the value of its output, so the steps
of an iteration come back in the order of their names.

Key definitions: `StepResult.decode`, `LoopSummary.decode`, `Trace.decode`,
`Trace.ofText?`.
-/
import Stepwise.Json.Decode
import Stepwise.Json.Reader
import Stepwise.Trace.Written

namespace Stepwise

open Json (Source DecodeError Slots)

namespace Json

mutual

/-- How deep a value nests. -/
def depth : Json → Nat
  | .arr items => depthList items + 1
  | .obj fields => depthFields fields + 1
  | _ => 0

/-- How deep the deepest item nests. -/
def depthList : List Json → Nat
  | [] => 0
  | v :: vs => max (depth v) (depthList vs)

/-- How deep the value of the deepest field nests. -/
def depthFields : Fields → Nat
  | [] => 0
  | (_, v) :: rest => max (depth v) (depthFields rest)

end

end Json

/-- The status that a word stands for. -/
def Status.decode (v : Json) : Except DecodeError Status :=
  Json.decodeEnum [(.succeeded, ["SUCCEEDED"]), (.failed, ["FAILED"])] v

/-- The mark of a loop. -/
def decodeMark (v : Json) : Except DecodeError Unit :=
  Json.decodeEnum [((), [loopMark])] v

/-- The steps of a scope, each read by `decode`; of several steps of one name the last
counts and takes the place of the first. -/
def decodeSteps (decode : Json → Except DecodeError StepResult) :
    Json → Except DecodeError Scope
  | .obj fields =>
    (fields.mapM fun p => (decode p.2).map (p.1, ·)).map Named.ofList
  | v => Json.mismatch v "a map"

/-- A loop summary whose steps are read by `decode`. -/
def decodeSummary (source : Source) (decode : Json → Except DecodeError StepResult) (v : Json) :
    Except DecodeError (LoopSummary StepResult) := do
  let s ← Slots.of source "LoopOutput" ["currentIteration", "currentItem", "iterations"] v
  s.finish
    (Json.both (s.required 0 "currentIteration" (Json.decodeNat "usize"))
      (Json.both (s.withDefault 1 none (Json.decodeOption Json.decodeValue))
        (s.required 2 "iterations" (Json.decodeList (decodeSteps decode)))))
    fun (current, item, iterations) => ⟨current, item, iterations⟩

/-- A result that holds at most `fuel` levels of results. -/
def decodeResult : Nat → Source → Json → Except DecodeError StepResult
  | 0, _, v => Json.mismatch v "struct StepRecord"
  | fuel + 1, source, v => do
    let s ← Slots.of source "StepRecord"
      ["input", "outputKind", "output", "status", "errorMessage", "durationMs"] v
    let (input, mark, output, status, message, duration) ← s.finish
      (Json.both (s.required 0 "input" Json.decodeValue)
        (Json.both (s.withDefault 1 none (Json.decodeOption decodeMark))
          (Json.both (s.required 2 "output" Json.decodeValue)
            (Json.both (s.required 3 "status" Status.decode)
              (Json.both (s.withDefault 4 none (Json.decodeOption Json.decodeString))
                (s.withDefault 5 0 (Json.decodeNat "u64")))))))
      id
    match mark with
    | none => .ok ⟨input, .value output, status, message, duration⟩
    | some () =>
      (decodeSummary .value (decodeResult fuel .value) output).map fun summary =>
        ⟨input, .loop summary, status, message, duration⟩

/-- A result. -/
def StepResult.decode (source : Source) (v : Json) : Except DecodeError StepResult :=
  decodeResult (v.depth + 1) source v

/-- A loop summary. -/
def LoopSummary.decode (source : Source) (v : Json) :
    Except DecodeError (LoopSummary StepResult) :=
  decodeSummary source (decodeResult (v.depth + 1) source) v

/-- A trace. -/
def Trace.decode (source : Source) (v : Json) : Except DecodeError Trace :=
  decodeSteps (decodeResult (v.depth + 1) source) v

/-- The trace that a text holds, if it holds one. -/
def Trace.ofText? (text : String) : Option Trace :=
  match Json.readWritten Json.depthLimit text.toList with
  | .ok v => (Trace.decode .text v).toOption
  | .error _ => none

end Stepwise

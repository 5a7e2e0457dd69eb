/-
# The trace of a run

A run records one result for every step it executes. A scope holds the results of
one chain under the names of their steps, in the order in which they were first
recorded; the result of a loop holds one scope for each of its iterations. A path of
loops and iteration indices, the outermost first, leads from the trace to the scope
of a step. A name is looked up in the scope at a path first and then in every scope
around it.

Key definitions: `StepResult`, `LoopSummary`, `Scope`, `Path`,
`Trace.scope?`, `Trace.modify`, `Trace.insert`, `Trace.getExact?`, `Trace.get?`,
`Trace.firstFailure?`.
-/
import Stepwise.Json.Basic

namespace Stepwise

/-- How a step ended. -/
inductive Status where
  | succeeded
  | failed
  deriving DecidableEq, Repr

/-- What a loop has done so far. `ρ` is the type of the results in its iterations. -/
structure LoopSummary (ρ : Type) where
  /-- The number of the current iteration, from one. -/
  currentIteration : Nat
  /-- The item of the current iteration, once there is one. -/
  currentItem : Option Json
  /-- The results of each iteration, in the order of execution. -/
  iterations : List (List (String × ρ))

/-- What a step produced. -/
inductive Output (ρ : Type) where
  | value (v : Json)
  | loop (summary : LoopSummary ρ)

/-- The record of one step. -/
structure StepResult where
  /-- The settings the step ran with, resolved. -/
  input : Json
  output : Output StepResult
  status : Status
  /-- Why the step failed. -/
  message : Option String
  /-- How long the step took. -/
  durationMs : Nat

/-- Results under the names of their steps, in order. -/
abbrev Scope := Named StepResult

/-- The results of the top-level chain of a run. -/
abbrev Trace := Scope

/-- One iteration of a loop: the loop's name and the index, from zero. -/
abbrev Frame := String × Nat

/-- The iterations around a step, the outermost first. -/
abbrev Path := List Frame

namespace LoopSummary

/-- A loop before its first iteration. -/
def initial {ρ : Type} : LoopSummary ρ := ⟨1, none, []⟩

/-- A loop that enters its next iteration with `item`. -/
def enter {ρ : Type} (s : LoopSummary ρ) (index : Nat) (item : Json) : LoopSummary ρ :=
  ⟨index + 1, some item, s.iterations ++ [[]]⟩

end LoopSummary

namespace StepResult

/-- A step that produced `output`. -/
def succeed (input output : Json) : StepResult := ⟨input, .value output, .succeeded, none, 0⟩

/-- A step that failed. -/
def fail (input : Json) (message : String) : StepResult :=
  ⟨input, .value .null, .failed, some message, 0⟩

/-- A loop, which has failed if there is a message. -/
def ofLoop (input : Json) (summary : LoopSummary StepResult) : Option String → StepResult
  | none => ⟨input, .loop summary, .succeeded, none, 0⟩
  | some message => ⟨input, .loop summary, .failed, some message, 0⟩

/-- Whether the step failed. -/
def isFailed (r : StepResult) : Bool := r.status = .failed

/-- The summary of a loop. -/
def loop? (r : StepResult) : Option (LoopSummary StepResult) :=
  match r.output with
  | .loop summary => some summary
  | .value _ => none

/-- The same record with another summary. -/
def withLoop (r : StepResult) (summary : LoopSummary StepResult) : StepResult :=
  { r with output := .loop summary }

/-- The message of a failed step named `name`. -/
def failure (name : String) (r : StepResult) : String :=
  r.message.getD ("step '" ++ name ++ "' failed")

end StepResult

namespace Scope

/-- The first result that failed. -/
def firstFailure? (s : Scope) : Option (String × StepResult) := s.find? (·.2.isFailed)

/-- The scope of one iteration of a loop recorded here. -/
def inner? (s : Scope) (frame : Frame) : Option Scope :=
  ((Named.get? s frame.1).bind StepResult.loop?).bind (·.iterations[frame.2]?)

/-- Replaces the scope of one iteration of a loop recorded here. -/
def setInner (s : Scope) (frame : Frame) (inner : Scope) : Scope :=
  match Named.get? s frame.1 with
  | none => s
  | some r =>
    match r.loop? with
    | none => s
    | some summary =>
      Named.put frame.1
        (r.withLoop { summary with iterations := summary.iterations.set frame.2 inner }) s

end Scope

namespace Trace

/-- The scope that a path leads to. -/
def scope? (t : Scope) : Path → Option Scope
  | [] => some t
  | frame :: rest => (t.inner? frame).bind (scope? · rest)

/-- The trace with `f` applied to the scope that the path leads to, if it leads to one. -/
def modify (t : Scope) : Path → (Scope → Scope) → Option Scope
  | [], f => some (f t)
  | frame :: rest, f =>
    (t.inner? frame).bind fun inner => (modify inner rest f).map (t.setInner frame)

/-- Records a result under a name in the scope that the path leads to. -/
def insert (t : Trace) (path : Path) (name : String) (r : StepResult) : Option Trace :=
  modify t path (Named.put name r)

/-- The result under a name in exactly the scope that the path leads to. -/
def getExact? (t : Trace) (path : Path) (name : String) : Option StepResult :=
  (scope? t path).bind (Named.get? · name)

/-- The scopes along a path as far as it leads, the innermost first. `around` are
those already passed. -/
def visible (t : Scope) (around : List Scope) : Path → List Scope
  | [] => t :: around
  | frame :: rest =>
    match t.inner? frame with
    | some inner => visible inner (t :: around) rest
    | none => t :: around

/-- The result under a name as seen from the path: the innermost one. -/
def get? (t : Trace) (path : Path) (name : String) : Option StepResult :=
  (visible t [] path).findSome? (Named.get? · name)

/-- The first top-level step that failed. -/
def firstFailure? (t : Trace) : Option (String × StepResult) := Scope.firstFailure? t

end Trace

namespace Path

/-- The text of a path: a slash, the loop and the index of every frame. -/
def text : Path → String
  | [] => "/"
  | path => String.join (path.map fun f => "/" ++ f.1 ++ "[" ++ toString f.2 ++ "]")

end Path

end Stepwise

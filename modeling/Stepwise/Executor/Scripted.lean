/-
# Scripted executors

For a rehearsal, a flow is run against executors that follow a script: each artifact and
each action of an integration has a behaviour, and the store is kept in memory. The calls
are written down in order.

Key definitions: `Behavior`, `Behavior.answer`, `Script`, `Script.State`,
`Script.executors`.
-/
import Stepwise.Executor.Registry
import Stepwise.Run.Process

namespace Stepwise

/-- How a scripted artifact or action answers. -/
inductive Behavior where
  /-- With its input. -/
  | echo
  /-- With a fixed value. -/
  | constant (v : Json)
  /-- With a field of its input, or null. -/
  | field (key : String)
  /-- With the number of times it has been called. -/
  | count
  /-- With an error. -/
  | fail (e : CallError)
  /-- With an error if its input, or a field of it, is a given value, and otherwise with
  its input. -/
  | failIf (key : Option String) (equals : Json) (e : CallError)
  /-- As one of several behaviours, one for each call; the last one stays. -/
  | sequence (steps : List Behavior)
  deriving Inhabited

/-- A field of a value, null if there is none. -/
def Json.fieldOrNull (key : String) (v : Json) : Json := (v.get? key).getD .null

mutual

/-- The answer to call number `count`, from one, with an input. -/
def Behavior.answer (count : Nat) (input : Json) : Behavior → Except CallError Json
  | .echo => .ok input
  | .constant v => .ok v
  | .field key => .ok (input.fieldOrNull key)
  | .count => .ok (.nat count)
  | .fail e => .error e
  | .failIf key equals e =>
    let seen := match key with
      | some k => input.fieldOrNull k
      | none => input
    if seen.same equals then .error e else .ok input
  | .sequence steps => answerAt count input (count - 1) steps

/-- The answer of the behaviour with an index, or of the last one. -/
def answerAt (count : Nat) (input : Json) : Nat → List Behavior → Except CallError Json
  | _, [] => .ok .null
  | _, [b] => b.answer count input
  | 0, b :: _ => b.answer count input
  | n + 1, _ :: rest => answerAt count input n rest

end

/-- What scripted executors do. -/
structure Script where
  code : Named Behavior
  integrations : Registry Behavior
  /-- The scoped keys whose reads and writes fail. -/
  storeErrors : Named CallError

/-- What scripted executors remember. -/
structure Script.State where
  /-- The calls, the last first. -/
  calls : List Call
  /-- The stored values, sorted by their keys. -/
  store : Json.Fields

namespace Script

/-- Whether a call runs this artifact. -/
def runsArtifact (artifact : String) : Call → Bool
  | .code a _ => a = artifact
  | _ => false

/-- Whether a call runs this action. -/
def runsAction (name action : String) : Call → Bool
  | .integration n a _ => n = name && a = action
  | _ => false

/-- The state with one more call. -/
def State.note (s : State) (c : Call) : State := { s with calls := c :: s.calls }

/-- A call of an artifact. -/
def answerCode (script : Script) (artifact : String) (input : Json) (s : State) :
    Except CallError Json × State :=
  let s := s.note (.code artifact input)
  match Named.get? script.code artifact with
  | none => (.error (.artifactNotFound artifact), s)
  | some b => (b.answer (s.calls.countP (runsArtifact artifact)) input, s)

/-- A call of an action. One that is not known is not written down. -/
def answerIntegration (script : Script) (name action : String) (input : Json) (s : State) :
    Except CallError Json × State :=
  match Registry.find script.integrations name action with
  | .error e => (.error e, s)
  | .ok b =>
    let s := s.note (.integration name action input)
    (b.answer (s.calls.countP (runsAction name action)) input, s)

/-- A read of the store. -/
def answerGet (script : Script) (key : String) (s : State) :
    Except CallError (Option Json) × State :=
  let s := s.note (.get key)
  match Named.get? script.storeErrors key with
  | some e => (.error e, s)
  | none => (.ok (Named.get? s.store key), s)

/-- A write to the store. -/
def answerPut (script : Script) (key : String) (value : Json) (s : State) :
    Except CallError Json × State :=
  let s := s.note (.put key value)
  match Named.get? script.storeErrors key with
  | some e => (.error e, s)
  | none => (.ok value, { s with store := Json.insert key value s.store })

/-- The executors that follow the script. -/
def executors (script : Script) : Executors State where
  code := script.answerCode
  integration := script.answerIntegration
  get := script.answerGet
  put := script.answerPut

end Script
end Stepwise

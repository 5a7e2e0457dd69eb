/-
# Jobs

A job is a flow and everything that one run of it may refer to: its identifiers, the
configuration, the output of its trigger and the credential for the store.

Key definitions: `Job`, `Job.ofJson`.
-/
import Stepwise.Flow.Check

namespace Stepwise

open Json (DecodeError Slots)

/-- What one run of a flow starts from. -/
structure Job where
  /-- Names the run. -/
  executionId : String
  /-- Names the definition of the flow. -/
  flowVersionId : String
  /-- The credential for the store. -/
  workerToken : Option String
  configs : Named Json
  /-- The output of the trigger. -/
  payload : Json
  flow : Flow
  deriving DecidableEq

namespace Job

/-- One entry of the configuration. -/
def decodeConfig (v : Json) : Except DecodeError (String × Json) := do
  let s ← Slots.of .value "ConfigEntry" ["key", "value"] v
  s.finish
    (Json.both (s.required 0 "key" Json.decodeString) (s.withDefault 1 .null Json.decodeValue))
    id

/-- The record of a job, its flow not yet built. A run without an identifier is given
`generated`. -/
def decodeRecord (generated : String) (v : Json) :
    Except DecodeError
      (String × String × Option String × List (String × Json) × Json × Json) := do
  let s ← Slots.of .value "JobDocument"
    ["executionId", "flowVersionId", "workerToken", "configs", "triggerPayload", "flow"] v
  s.finish
    (Json.both (s.withDefault 0 generated Json.decodeString)
      (Json.both (s.withDefault 1 "default" Json.decodeString)
        (Json.both (s.withDefault 2 none (Json.decodeOption Json.decodeString))
          (Json.both (s.withDefault 3 [] (Json.decodeList decodeConfig))
            (Json.both (s.withDefault 4 .null Json.decodeValue)
              (s.required 5 "flow" Json.decodeValue))))))
    id

/-- The job in a document. A run without an identifier is given `generated`. -/
def ofJson (generated : String) (document : Json) : Except FlowError Job := do
  match decodeRecord generated document with
  | .error e => throw (.unparsable (.job e))
  | .ok (executionId, flowVersionId, workerToken, configs, payload, flow) =>
    let flow ← Flow.build flow
    return ⟨executionId, flowVersionId, workerToken, Named.ofList configs, payload, flow⟩

end Job
end Stepwise

/-
# Why a call fails

The steps of a flow do their work through calls: to an artifact, to an action of an
integration, or to the store. A call that fails says why.

Key definitions: `CallError`, `CallError.message`.
-/
import Stepwise.Time.Duration

namespace Stepwise

/-- What went wrong between the client and the store. -/
inductive HttpFault where
  /-- No answer was received. -/
  | transport
  /-- The body of the answer could not be decoded. -/
  | decoding
  deriving DecidableEq, Repr

/-- Why a call failed. -/
inductive CallError where
  | integrationNotFound (name : String)
  | actionNotFound (integration action : String)
  | artifactNotFound (artifact : String)
  | unsupportedArtifact (artifact : String)
  /-- What was called has failed. -/
  | failed (message : String)
  | timeout (after : Duration)
  | http (fault : HttpFault)
  /-- The store answered with a status other than a success. -/
  | status (code : Nat) (body : String)
  | io (message : String)
  deriving DecidableEq, Repr

/-- The words for a fault. -/
def HttpFault.message : HttpFault → String
  | .transport => "error sending request"
  | .decoding => "error decoding response body"

/-- The words for an error. -/
def CallError.message : CallError → String
  | .integrationNotFound name => "integration '" ++ name ++ "' not found"
  | .actionNotFound integration action =>
    "action '" ++ action ++ "' not found on integration '" ++ integration ++ "'"
  | .artifactNotFound artifact => "code artifact '" ++ artifact ++ "' not found"
  | .unsupportedArtifact artifact =>
    "no interpreter configured for artifact '" ++ artifact ++ "'"
  | .failed message => message
  | .timeout after => "timed out after " ++ after.text
  | .http fault => "storage request failed: " ++ fault.message
  | .status code body => "storage service returned " ++ toString code ++ ": " ++ body
  | .io message => "I/O error: " ++ message

end Stepwise

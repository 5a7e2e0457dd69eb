/-
# Why a job cannot be run

Everything that can be wrong with a job document is found before the first step. Each
cause has its own message.

Key definitions: `FlowError`, `FlowError.message`, `NameError`.
-/
import Stepwise.Json.Decode
import Stepwise.Json.Reader

namespace Stepwise

/-- What is wrong with the name of a step. -/
inductive NameError where
  | empty
  | duplicate (name : String)
  | reserved (name : String)
  deriving DecidableEq, Repr

/-- The words for a misused name. -/
def NameError.message : NameError → String
  | .empty => "Step has empty or whitespace-only name"
  | .duplicate name => "Duplicate step name: '" ++ name ++ "'"
  | .reserved name => "Step name '" ++ name ++ "' is reserved"

/-- Why a document cannot be parsed. -/
inductive ParseFault where
  /-- It is no JSON. -/
  | json (error : Json.ReadError)
  /-- It is no YAML. -/
  | yaml
  /-- It is no job. -/
  | job (error : Json.DecodeError)
  deriving DecidableEq

/-- The words for a fault. -/
def ParseFault.message : ParseFault → String
  | .json e => e.message
  | .yaml => "invalid YAML"
  | .job e => e.message

/-- Why a job cannot be loaded or built. -/
inductive FlowError where
  | unreadable (path reason : String)
  | unparsable (fault : ParseFault)
  | notAnObject (context : String)
  | missingField (field : String)
  | unknownActionKind (name kind : String)
  | unknownTriggerKind (kind : String)
  | missingSetting (action field : String)
  | invalidSettings (action : String) (error : Json.DecodeError)
  | invalid (errors : List NameError)
  deriving DecidableEq

/-- The words for an error. -/
def FlowError.message : FlowError → String
  | .unreadable path reason => "failed to read job file '" ++ path ++ "': " ++ reason
  | .unparsable fault => "failed to parse job document: " ++ fault.message
  | .notAnObject context => context ++ " must be an object"
  | .missingField field => "action is missing required field '" ++ field ++ "'"
  | .unknownActionKind name kind => "action '" ++ name ++ "' has unknown kind '" ++ kind ++ "'"
  | .unknownTriggerKind kind => "unknown trigger kind '" ++ kind ++ "'"
  | .missingSetting action field =>
    "'" ++ action ++ "' is missing required setting '" ++ field ++ "'"
  | .invalidSettings action error =>
    "'" ++ action ++ "' has invalid settings: " ++ error.message
  | .invalid errors =>
    "invalid flow:\n" ++ String.intercalate "\n" (errors.map NameError.message)

end Stepwise

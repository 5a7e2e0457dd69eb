/-
# Configuration of the runner

The runner reads four settings from its environment. One that is not set has a default;
one that is set must be usable, and the first that is not is reported.

Key definitions: `Config`, `Config.ofLookup`, `ConfigError`, `ConfigError.message`.
-/
import Stepwise.Json.Basic
import Stepwise.Text.Blank
import Stepwise.Time.Duration

namespace Stepwise

/-- What the runner needs to know besides the job. -/
structure Config where
  /-- Where the store is. -/
  storageUrl : String
  /-- How long one request to the store may take. -/
  requestTimeout : Duration
  /-- How long one artifact may run. -/
  codeTimeout : Duration
  /-- Where artifacts are looked for. -/
  artifactsDir : String
  deriving DecidableEq, Repr

/-- Why a setting cannot be used. -/
inductive ConfigError where
  | invalidTimeout (setting value : String)
  | empty (setting : String)
  deriving DecidableEq, Repr

/-- The words for an error. -/
def ConfigError.message : ConfigError → String
  | .invalidTimeout name value =>
    name ++ " must be a positive number of seconds, got '" ++ value ++ "'"
  | .empty name => name ++ " must not be empty"

namespace Config

/-- The variable for the store. -/
def storageUrlVariable : String := "FLOWRUNNER_STORAGE_URL"

/-- The variable for the time of a request. -/
def requestTimeoutVariable : String := "FLOWRUNNER_REQUEST_TIMEOUT_SECS"

/-- The variable for the time of an artifact. -/
def codeTimeoutVariable : String := "FLOWRUNNER_CODE_TIMEOUT_SECS"

/-- The variable for the artifacts. -/
def artifactsDirVariable : String := "FLOWRUNNER_ARTIFACTS_DIR"

/-- The variables that the configuration is read from. -/
def settingNames : List String :=
  [storageUrlVariable, requestTimeoutVariable, codeTimeoutVariable, artifactsDirVariable]

/-- The configuration when nothing is set. -/
def default : Config :=
  ⟨"http://localhost:3000", .ofSeconds 10, .ofSeconds 30, "artifacts"⟩

/-- A number of seconds, blanks around it aside. -/
def timeout (name value : String) : Except ConfigError Duration :=
  match Json.index? (Text.trim value) with
  | some n => if 0 < n then .ok (.ofSeconds n) else .error (.invalidTimeout name value)
  | none => .error (.invalidTimeout name value)

/-- A text that is not blank, without the blanks around it. -/
def nonEmpty (name value : String) : Except ConfigError String :=
  if Text.allBlank value then .error (.empty name) else .ok (Text.trim value)

/-- A setting as `read` understands it, or its default. -/
def setting {α : Type} (lookup : String → Option String) (name : String) (fallback : α)
    (read : String → String → Except ConfigError α) : Except ConfigError α :=
  match lookup name with
  | none => .ok fallback
  | some value => read name value

/-- The configuration in an environment. -/
def ofLookup (lookup : String → Option String) : Except ConfigError Config := do
  let storageUrl ← setting lookup storageUrlVariable default.storageUrl nonEmpty
  let requestTimeout ← setting lookup requestTimeoutVariable default.requestTimeout timeout
  let codeTimeout ← setting lookup codeTimeoutVariable default.codeTimeout timeout
  let artifactsDir ← setting lookup artifactsDirVariable default.artifactsDir nonEmpty
  return ⟨storageUrl, requestTimeout, codeTimeout, artifactsDir⟩

end Config
end Stepwise

/-
# What a program leaves behind

A program reads its input and writes an output and messages, and ends with a code or by
a signal. If it succeeds, its output is its answer: null if it is blank, the JSON that it
is, and otherwise a string. If it fails, its messages say why.

Key definitions: `Exit`, `Outcome`, `Outcome.answer`, `Outcome.reply`.
-/
import Stepwise.Executor.Error
import Stepwise.Json.Reader
import Stepwise.Text.Blank
import Stepwise.Text.Utf8

namespace Stepwise

/-- How a program ends. -/
inductive Exit where
  | code (n : Nat)
  /-- By a signal. -/
  | signal
  deriving DecidableEq, Repr

/-- Whether it is a success. -/
def Exit.isSuccess : Exit → Bool
  | .code n => n = 0
  | .signal => false

/-- The code as messages show it. -/
def Exit.text : Exit → String
  | .code n => "Some(" ++ toString n ++ ")"
  | .signal => "None"

/-- What a program leaves behind. -/
structure Outcome where
  stdout : ByteArray
  stderr : ByteArray
  exit : Exit
  /-- How long it ran, in nanoseconds, unless it never ends. -/
  elapsed : Option Nat

namespace Outcome

/-- The answer that an output is. -/
def answer (stdout : ByteArray) : Json :=
  let text := Text.trim (Text.decodeLossy stdout)
  if text = "" then .null
  else
    match Json.read Json.depthLimit text.toList with
    | .ok v => v
    | .error _ => .str text

/-- Why a program failed. -/
def failure (artifact : String) (o : Outcome) : String :=
  let message := Text.trim (Text.decodeLossy o.stderr)
  if message = "" then "artifact '" ++ artifact ++ "' exited with code " ++ o.exit.text
  else message

/-- Whether the program is still running after a time. -/
def exceeds (o : Outcome) (limit : Duration) : Bool := o.elapsed.all (limit.totalNanos ≤ ·)

/-- The reply to the call of an artifact. -/
def reply (artifact : String) (limit : Duration) (o : Outcome) : Except CallError Json :=
  if o.exceeds limit then .error (.timeout limit)
  else if o.exit.isSuccess then .ok (answer o.stdout)
  else .error (.failed (o.failure artifact))

end Outcome
end Stepwise

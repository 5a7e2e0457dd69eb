/-
# The state of a shell

A shell has variables, the input that is left, what has been written so far and the time
that has passed. A stream that is written to leads to one of two places, or nowhere.

Key definitions: `Shell.Machine`, `Shell.Machine.write`, `Shell.Machine.valueOf`,
`Shell.Machine.redirect`.
-/
import Stepwise.Artifact.Outcome
import Stepwise.Files.Tree
import Stepwise.Named
import Stepwise.Shell.Syntax

namespace Stepwise
namespace Shell

/-- Where a stream leads. -/
inductive Sink where
  | output
  | messages
  | nowhere
  deriving DecidableEq, Repr

/-- Whether a redirection changes what is read. -/
def Redirect.changesInput : Redirect → Bool
  | .copy stream _ => stream = 0
  | .close stream => stream = 0
  | .discard stream => stream = 0
  | .supply _ => true

/-- The state of a shell. -/
structure Machine where
  /-- The path of the script. -/
  script : String
  tree : FileTree
  here : Location
  bindings : Named String
  /-- The code of the last command. -/
  status : Nat
  /-- The input that is left, unless it is closed. -/
  input : Option ByteArray
  output : ByteArray
  messages : ByteArray
  outputSink : Sink
  messagesSink : Sink
  /-- In nanoseconds. -/
  elapsed : Nat
  /-- When the last of the statements is done that run aside. -/
  busyUntil : Nat
  /-- Whether the script never ends. -/
  stuck : Bool
  /-- How the script has ended, if it has. -/
  ending : Option Exit
  /-- Whether the script ends at the first failure. -/
  strict : Bool

namespace Machine

/-- The number of the process, as scripts see it. -/
def processId : String := "4242"

/-- A shell that is about to run the script at a path. -/
def start (tree : FileTree) (here : Location) (script : String) (input : ByteArray) : Machine :=
  { script, tree, here, bindings := [], status := 0, input := some input
    output := .empty, messages := .empty, outputSink := .output, messagesSink := .messages
    elapsed := 0, busyUntil := 0, stuck := false, ending := none, strict := false }

/-- Whether the script has ended. -/
def hasEnded (m : Machine) : Bool := m.ending.isSome || m.stuck

/-- The state after a command with a code. -/
def exitWith (m : Machine) (status : Nat) : Machine := { m with status := status }

/-- Adds bytes to where a sink leads. -/
def pour (m : Machine) (sink : Sink) (bytes : ByteArray) : Machine :=
  match sink with
  | .output => { m with output := m.output ++ bytes }
  | .messages => { m with messages := m.messages ++ bytes }
  | .nowhere => m

/-- Writes to the output. -/
def write (m : Machine) (bytes : ByteArray) : Machine := m.pour m.outputSink bytes

/-- Writes a line to the output. -/
def writeLine (m : Machine) (s : String) : Machine := m.write (s ++ "\n").toUTF8

/-- Writes a line to the messages and fails. -/
def complain (m : Machine) (status : Nat) (s : String) : Machine :=
  (m.pour m.messagesSink (s ++ "\n").toUTF8).exitWith status

/-- Takes all of the input. -/
def drain (m : Machine) : ByteArray × Machine :=
  (m.input.getD .empty, { m with input := m.input.map fun _ => .empty })

/-- The path of the folder in which the script runs. -/
def folderPath (m : Machine) : String := "/" ++ String.intercalate "/" m.here

/-- What a name stands for. -/
def valueOf (m : Machine) (name : String) : String :=
  if name = "?" then toString m.status
  else if name = "$" then processId
  else if name = "0" then m.script
  else if name = "#" then "0"
  else
    match Named.get? m.bindings name with
    | some v => v
    | none => if name = "PWD" then m.folderPath else ""

/-- The state with a variable set. -/
def set (m : Machine) (name value : String) : Machine :=
  { m with bindings := m.bindings.put name value }

/-- Where a stream that is written to leads. -/
def sinkOf (m : Machine) (stream : Nat) : Sink :=
  if stream = 1 then m.outputSink else if stream = 2 then m.messagesSink else .nowhere

/-- Lets a stream lead elsewhere. -/
def lead (m : Machine) (stream : Nat) (sink : Sink) : Machine :=
  if stream = 1 then { m with outputSink := sink }
  else if stream = 2 then { m with messagesSink := sink }
  else m

/-- Applies a redirection. -/
def redirect (m : Machine) : Redirect → Machine
  | .copy stream source => m.lead stream (m.sinkOf source)
  | .close 0 => { m with input := none }
  | .close stream => m.lead stream .nowhere
  | .discard 0 => { m with input := some .empty }
  | .discard stream => m.lead stream .nowhere
  | .supply text => { m with input := some text.toUTF8 }

/-- Runs a part with redirections, which end with it. -/
def redirected (m : Machine) (redirects : List Redirect) (part : Machine → Machine) : Machine :=
  let after := part (redirects.foldl redirect m)
  { after with
    outputSink := m.outputSink
    messagesSink := m.messagesSink
    input := if redirects.any (·.changesInput) then m.input else after.input }

/-- What the script leaves behind. -/
def outcome (m : Machine) : Outcome :=
  { stdout := m.output
    stderr := m.messages
    exit := m.ending.getD (.code m.status)
    elapsed := if m.stuck then none else some (max m.elapsed m.busyUntil) }

end Machine
end Shell
end Stepwise

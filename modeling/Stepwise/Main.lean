/-
# The program

The program carries out its command line on the machine that it runs on. An artifact is
read from the disk and interpreted in memory, in a folder of its own. No service can be
reached.

Key definitions: `Console.host`, `main`.
-/
import Std.Time
import Stepwise.Artifact.Run
import Stepwise.Runner.Session

namespace Stepwise
namespace Console

/-- The fault that an error of the system is. -/
def fault : IO.Error → FileFault
  | .noFileOrDirectory _ _ _ => .missing
  | .inappropriateType _ 20 _ => .notFolder
  | .inappropriateType _ 21 _ => .isFolder
  | e => .other (toString e)

/-- The result of an action on files, or its fault. -/
def attempt {α : Type} (action : IO α) : IO (Except FileFault α) := do
  match ← action.toBaseIO with
  | .ok a => return .ok a
  | .error e => return .error (fault e)

/-- The reply of an artifact in a folder. -/
def execute (folder : String) (timeout : Duration) (artifact : String) (input : Json) :
    IO (Except CallError Json) := do
  let path := FileName.join folder artifact
  let names := (FileName.parts path).filter fun name => !FileName.isStay name
  let tree : FileTree := match ← attempt (IO.FS.readBinFile path) with
    | .ok content => FileTree.put content names (.folder [])
    | .error _ => .folder []
  let artifacts : Artifacts := ⟨⟨tree, [], folder⟩, timeout, Interpreter.run⟩
  return artifacts.execute artifact input

/-- The point in time that the clock of the system shows. -/
def now : IO Timestamp := do
  let nanos := (← Std.Time.Timestamp.now).toNanosecondsSinceUnixEpoch.toInt
  return ⟨nanos.fdiv 1000000000, (nanos.fmod 1000000000).toNat⟩

/-- The machine that the program runs on. -/
def host (environment : String → Option String) : Host IO where
  environment := environment
  read path := attempt (IO.FS.readBinFile path)
  write path content := attempt (IO.FS.writeFile path content)
  say text := do (← IO.getStdout).putStr text
  note text := do (← IO.getStderr).putStr text
  execute := execute
  send _ _ := pure none
  now := now
  clock := IO.monoMsNow

/-- The variables of the configuration that are set. -/
def environment : IO (List (String × String)) :=
  Config.settingNames.filterMapM fun name => do
    return (← IO.getEnv name).map fun value => (name, value)

end Console
end Stepwise

/-- Carries out a command line and ends with its code. -/
def main (arguments : List String) : IO UInt32 := do
  let assigned ← Stepwise.Console.environment
  let code ← Stepwise.Session.ofArguments
    (Stepwise.Console.host fun name => assigned.lookup name) arguments
  return UInt32.ofNat code

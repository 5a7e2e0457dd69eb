/-
# Running artifacts

An artifact is looked up, handed to its interpreter with the compact text of its input,
and its outcome is the reply. It runs in the folder of artifacts.

Key definitions: `Artifacts`, `Artifacts.execute`, `Interpreter.run`.
-/
import Stepwise.Artifact.Lookup
import Stepwise.Artifact.Outcome
import Stepwise.Shell.Run
import Stepwise.Snippet.Run

namespace Stepwise

/-- What interpreters leave behind, given the folder they run in, the path of a script
and an input. -/
abbrev Interpretation := Interpreter → FileTree → Location → String → ByteArray → Outcome

/-- What the interpreters leave behind. -/
def Interpreter.run : Interpretation
  | .bash => Shell.run
  | .node => Snippet.run .node
  | .python => Snippet.run .python

/-- The artifacts that a runner may call. -/
structure Artifacts where
  folder : ArtifactFolder
  /-- How long one of them may run. -/
  timeout : Duration
  interpretation : Interpretation

namespace Artifacts

/-- The reply to the call of an artifact. -/
def execute (a : Artifacts) (artifact : String) (input : Json) : Except CallError Json :=
  match a.folder.locate? artifact with
  | none => .error (.artifactNotFound artifact)
  | some path =>
    match Interpreter.ofPath? path with
    | none => .error (.unsupportedArtifact artifact)
    | some interpreter =>
      let here := (a.folder.tree.resolve? a.folder.here a.folder.path).getD []
      let outcome := a.interpretation interpreter a.folder.tree here path input.compact.toUTF8
      outcome.reply artifact a.timeout

end Artifacts
end Stepwise

/-
# Looking up artifacts

An artifact is named by a path below the folder of artifacts. The path is not blank, does
not begin at the root and has no step upwards; it must lead to a file. The extension of
the file tells which interpreter runs it.

Key definitions: `ArtifactFolder`, `ArtifactFolder.locate?`, `Interpreter`,
`Interpreter.ofPath?`.
-/
import Stepwise.Files.Tree
import Stepwise.Text.Blank

namespace Stepwise

/-- Where artifacts are looked for. -/
structure ArtifactFolder where
  /-- The file system. -/
  tree : FileTree
  /-- Where the runner stands in it. -/
  here : Location
  /-- The path of the folder. -/
  path : String

namespace ArtifactFolder

/-- Whether a path may leave the folder. -/
def escapes (artifact : String) : Bool :=
  FileName.isAbsolute artifact || (FileName.parts artifact).contains ".."

/-- The path of the file of an artifact. -/
def locate? (folder : ArtifactFolder) (artifact : String) : Option String :=
  if Text.allBlank artifact || escapes artifact then none
  else
    let path := FileName.join folder.path artifact
    match folder.tree.resolve? folder.here path with
    | some location => if folder.tree.hasFile location then some path else none
    | none => none

end ArtifactFolder

/-- What runs the file of an artifact. -/
inductive Interpreter where
  | bash
  | node
  | python
  deriving DecidableEq, Repr

namespace Interpreter

/-- The interpreter for an extension in lower case. -/
def ofExtension? (extension : String) : Option Interpreter :=
  if extension = "sh" || extension = "bash" then some .bash
  else if extension = "js" || extension = "mjs" || extension = "cjs" then some .node
  else if extension = "py" then some .python
  else none

/-- The interpreter for the file at a path. -/
def ofPath? (path : String) : Option Interpreter :=
  (FileName.extension? path).bind fun e =>
    ofExtension? (String.ofList (e.toList.map Char.toLower))

end Interpreter
end Stepwise

/-
# File trees

A file system without links is a tree of folders with files at its leaves. A location is
the row of names that leads from the root to a folder or a file. A path is followed name
by name from a location; every name but the last must lead to a folder, and so must all
before a slash.

Key definitions: `FileTree`, `FileTree.find?`, `FileTree.resolve`, `FileTree.read`,
`FileTree.write`, `FileFault`, `FileFault.message`.
-/
import Stepwise.Files.Name

namespace Stepwise

/-- A folder, or a file with its content. -/
inductive FileTree where
  | file (content : ByteArray)
  | folder (entries : List (String × FileTree))
  deriving Inhabited

/-- The names from the root to a folder or a file. -/
abbrev Location := List String

/-- Why a file cannot be read or written. -/
inductive FileFault where
  | missing
  /-- A name on the way leads to a file. -/
  | notFolder
  | isFolder
  | tooLong
  | other (message : String)
  deriving DecidableEq, Repr

/-- The words for a fault, with the number that the system has for it. -/
def FileFault.message : FileFault → String
  | .missing => "No such file or directory (os error 2)"
  | .notFolder => "Not a directory (os error 20)"
  | .isFolder => "Is a directory (os error 21)"
  | .tooLong => "File name too long (os error 36)"
  | .other message => message

namespace FileTree

/-- Whether it is a file. -/
def isFile : FileTree → Bool
  | .file _ => true
  | .folder _ => false

/-- What a name leads to. -/
def entry? (name : String) : FileTree → Option FileTree
  | .file _ => none
  | .folder entries => entries.lookup name

/-- What is at a location. -/
def find? : FileTree → Location → Option FileTree
  | tree, [] => some tree
  | tree, name :: rest => (tree.entry? name).bind (find? · rest)

/-- Whether a folder is at a location. -/
def hasFolder (tree : FileTree) (place : Location) : Bool :=
  (tree.find? place).any fun t => !t.isFile

/-- Whether a file is at a location. -/
def hasFile (tree : FileTree) (place : Location) : Bool := (tree.find? place).any isFile

/-- Where one name leads from a location. -/
def follow (tree : FileTree) (place : Location) (name : String) : Except FileFault Location :=
  if !tree.hasFolder place then .error .notFolder
  else if FileName.isStay name then .ok place
  else if name = ".." then .ok place.dropLast
  else if FileName.longestName < name.utf8ByteSize then .error .tooLong
  else if (tree.find? (place ++ [name])).isSome then .ok (place ++ [name])
  else .error .missing

/-- Where a row of names leads from a location. -/
def followAll (tree : FileTree) (place : Location) (names : List String) :
    Except FileFault Location := names.foldlM tree.follow place

/-- Where a path begins that is followed from a location. -/
def start (place : Location) (path : String) : Location :=
  if FileName.isAbsolute path then [] else place

/-- Where a path leads from a location. -/
def resolve (tree : FileTree) (place : Location) (path : String) : Except FileFault Location :=
  if path = "" then .error .missing
  else if FileName.longestPath < path.utf8ByteSize then .error .tooLong
  else tree.followAll (start place path) (FileName.parts path)

/-- Where a path leads from a location, if it leads anywhere. -/
def resolve? (tree : FileTree) (place : Location) (path : String) : Option Location :=
  (tree.resolve place path).toOption

/-- The content of the file that a path leads to. -/
def read (tree : FileTree) (place : Location) (path : String) : Except FileFault ByteArray := do
  match tree.find? (← tree.resolve place path) with
  | some (.file content) => return content
  | some (.folder _) => throw .isFolder
  | none => throw .missing

/-- The content of the file that a path leads to, if it leads to one. -/
def read? (tree : FileTree) (place : Location) (path : String) : Option ByteArray :=
  (tree.read place path).toOption

/-- The tree with a file at a location, and the folders that lead to it. -/
def put (content : ByteArray) : Location → FileTree → FileTree
  | [], _ => .file content
  | name :: rest, tree =>
    let entries := match tree with
      | .folder entries => entries
      | .file _ => []
    let inner := put content rest ((entries.lookup name).getD (.folder []))
    .folder ((name, inner) :: entries.filter (·.1 ≠ name))

/-- The tree with a folder at a location, and the folders that lead to it. -/
def putFolder : Location → FileTree → FileTree
  | [], tree => if tree.isFile then .folder [] else tree
  | name :: rest, tree =>
    let entries := match tree with
      | .folder entries => entries
      | .file _ => []
    let inner := putFolder rest ((entries.lookup name).getD (.folder []))
    .folder ((name, inner) :: entries.filter (·.1 ≠ name))

/-- Where a file can be written that a path names from a location: its folder must be
there, and no folder may have its name. -/
def target (tree : FileTree) (place : Location) (path : String) : Except FileFault Location := do
  if path = "" then throw .missing
  if FileName.longestPath < path.utf8ByteSize then throw .tooLong
  let names := FileName.parts path
  match (names.reverse.dropWhile (· = "")) with
  | [] => throw .isFolder
  | name :: before =>
    let folder ← tree.followAll (start place path) before.reverse
    if !tree.hasFolder folder then throw .notFolder
    if FileName.isStay name || name = ".." || names.getLast? = some "" then throw .isFolder
    if FileName.longestName < name.utf8ByteSize then throw .tooLong
    if tree.hasFolder (folder ++ [name]) then throw .isFolder
    return folder ++ [name]

/-- The tree with a file that a path names from a location. -/
def write (tree : FileTree) (place : Location) (path : String) (content : ByteArray) :
    Except FileFault FileTree :=
  (tree.target place path).map fun location => tree.put content location

end FileTree
end Stepwise

/-
# Names of files

A path is a row of names between slashes; it is absolute if a slash comes first. Its
extension is what follows the last point of its last name, unless nothing comes before
that point.

Key definitions: `FileName.parts`, `FileName.isAbsolute`, `FileName.last?`,
`FileName.extension?`.
-/
namespace Stepwise
namespace FileName

/-- The most bytes that a name has. -/
def longestName : Nat := 255

/-- The most bytes that a path has. -/
def longestPath : Nat := 4095

/-- The names between slashes, empty ones included. -/
def split : List Char → List (List Char)
  | [] => [[]]
  | c :: rest =>
    if c = '/' then [] :: split rest
    else
      match split rest with
      | part :: parts => (c :: part) :: parts
      | [] => [[c]]

/-- The names between the slashes of a path, empty ones included. -/
def parts (path : String) : List String := (split path.toList).map String.ofList

/-- Whether a path begins at the root. -/
def isAbsolute (path : String) : Bool := path.toList.head? = some '/'

/-- Whether a name leads nowhere else. -/
def isStay (name : String) : Bool := name = "" || name = "."

/-- The last name of a path that leads somewhere, unless it leads upwards. -/
def last? (path : String) : Option String :=
  ((parts path).filter fun name => !isStay name).getLast?.bind fun name =>
    if name = ".." then none else some name

/-- The extension of a path. -/
def extension? (path : String) : Option String :=
  (last? path).bind fun name =>
    let tail := name.toList.reverse.takeWhile (· ≠ '.')
    if tail.length + 1 < name.length then some (String.ofList tail.reverse) else none

/-- A path below a folder, as one path. -/
def join (folder path : String) : String :=
  if isAbsolute path then path
  else if folder = "" || folder.toList.getLast? = some '/' then folder ++ path
  else folder ++ "/" ++ path

end FileName
end Stepwise

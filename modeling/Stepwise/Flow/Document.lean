/-
# Job documents

A job document is a file with YAML in it if its name ends in `.yaml` or `.yml`, in
whatever case, and a file with JSON otherwise. A run whose document cannot be read, or
whose flow cannot be built, ends in the phase that failed.

Key definitions: `Document.isYaml`, `Document.parse`, `Document.ofBytes`,
`Document.ofFile`.
-/
import Stepwise.Files.Tree
import Stepwise.Flow.Error
import Stepwise.Yaml.Value

namespace Stepwise
namespace Document

/-- Whether a file of this name holds YAML. -/
def isYaml (path : String) : Bool :=
  match FileName.extension? path with
  | some e =>
    let lower := e.toList.map Char.toLower
    lower = ['y', 'a', 'm', 'l'] || lower = ['y', 'm', 'l']
  | none => false

/-- The document that the JSON of a file is, at any depth. -/
def parseJson (content : String) : Except FlowError Json :=
  match Json.read none content.toList with
  | .ok v => .ok v
  | .error e => .error (.unparsable (.json e))

/-- The document that the YAML of a file is. -/
def parseYaml (content : String) : Except FlowError Json :=
  match Yaml.read? content.toList with
  | some v => .ok v
  | none => .error (.unparsable .yaml)

/-- The document that the content of a file is. -/
def parse (path content : String) : Except FlowError Json :=
  if isYaml path then parseYaml content else parseJson content

/-- The document in a file of this name. The bytes must be the encoding of a text. -/
def ofBytes (path : String) (bytes : ByteArray) : Except FlowError Json :=
  match String.fromUTF8? bytes with
  | some content => parse path content
  | none => .error (.unreadable path "stream did not contain valid UTF-8")

/-- The document at a path, given what reading the file there gives. -/
def ofFile (path : String) (content : Except FileFault ByteArray) : Except FlowError Json :=
  match content with
  | .ok bytes => ofBytes path bytes
  | .error fault => .error (.unreadable path fault.message)

end Document
end Stepwise

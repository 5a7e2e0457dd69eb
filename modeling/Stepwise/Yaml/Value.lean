/-
# The value of a document

The value of a document is that of its root. A key is the text of a scalar as it is
written; of several fields with one key the last stays. An alias has the value of the
node with its number, of the last one if there are several. At most 128 lists and
objects are nested, aliases followed, and there is a limit to following aliases too.

Key definitions: `Yaml.Document`, `Yaml.Document.value?`, `Yaml.read?`.
-/
import Stepwise.Yaml.Layout
import Stepwise.Yaml.Node
import Stepwise.Yaml.Scalar

namespace Stepwise
namespace Yaml

/-- A document whose aliases can be followed. -/
structure Document where
  root : Node
  /-- The nodes with a number, the last first. -/
  anchored : List (Nat × Node)
  /-- How often aliases may be followed. -/
  followLimit : Nat

namespace Document

/-- The document with a root. -/
def ofNode (root : Node) : Document := ⟨root, root.anchored.reverse, root.size * 100⟩

/-- How many lists and objects may be nested. -/
def depthLimit : Nat := 128

/-- The node that an alias refers to, any other node itself. The state counts the
aliases followed. -/
def follow (doc : Document) : Node → StateT Nat Option Node
  | .alias number, count =>
    if count < doc.followLimit then
      (doc.anchored.lookup number).map fun node => (node, count + 1)
    else none
  | node, count => some (node, count)

/-- The key that a node is. -/
def key? (doc : Document) (node : Node) : StateT Nat Option String := do
  match ← doc.follow node with
  | .scalar _ _ text => return text
  | _ => failure

/-- The value of a node in which lists and objects may nest so deep. -/
def valueAt? (doc : Document) : Nat → Node → StateT Nat Option Json
  | depth, node => do
    match ← doc.follow node, depth with
    | .scalar marks plain text, _ => scalarValue? marks.tag plain text
    | .list marks items, depth + 1 =>
      guard (!isOwnTag marks.tag)
      return .arr (← items.mapM (valueAt? doc depth))
    | .object marks fields, depth + 1 =>
      guard (!isOwnTag marks.tag)
      return .obj (← fields.mapM fun f => do
        return (← doc.key? f.1, ← valueAt? doc depth f.2))
    | _, _ => failure

/-- The value of a document, in canonical form. -/
def value? (doc : Document) : Option Json :=
  ((valueAt? doc depthLimit doc.root).run' 0).map Json.canonical

end Document

/-- The value of a text, null if it holds no document. -/
def read? (text : List Char) : Option Json :=
  (Token.ofText? text).bind fun tokens =>
    (Node.ofTokens? tokens).bind fun root =>
      match root with
      | some node => (Document.ofNode node).value?
      | none => some .null

end Yaml
end Stepwise

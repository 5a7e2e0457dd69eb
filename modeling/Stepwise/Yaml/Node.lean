/-
# Nodes

A text holds at most one document, a tree of scalars, lists and objects. The tree is
read off the tokens. An anchor gives a node a number, and an alias refers to the number
that its name has where the alias stands. A number is the count of the names known
before it, so that numbers recur once a name has been set again.

Key definitions: `Yaml.Node`, `Yaml.Node.ofTokens?`, `Yaml.Node.anchored`,
`Yaml.Node.size`.
-/
import Stepwise.Named
import Stepwise.Yaml.Token

namespace Stepwise
namespace Yaml

/-- What stands in front of a node. -/
structure Marks where
  /-- The number of its anchor. -/
  anchor : Option Nat
  tag : Option Tag
  deriving Repr

/-- A node of a document. -/
inductive Node where
  /-- The node with the number. -/
  | alias (number : Nat)
  | scalar (marks : Marks) (plain : Bool) (text : String)
  | list (marks : Marks) (items : List Node)
  | object (marks : Marks) (fields : List (Node × Node))
  deriving Inhabited, Repr

namespace Node

/-- A node that is left out. -/
def empty : Node := .scalar ⟨none, none⟩ true ""

/-- Puts a node with a number in front of others. -/
def mark (marks : Marks) (node : Node) (rest : List (Nat × Node)) : List (Nat × Node) :=
  match marks.anchor with
  | some number => (number, node) :: rest
  | none => rest

mutual

/-- The nodes with a number, in the order in which they begin. -/
def anchored : Node → List (Nat × Node)
  | .alias _ => []
  | .scalar marks plain text => mark marks (.scalar marks plain text) []
  | .list marks items => mark marks (.list marks items) (anchoredItems items)
  | .object marks fields => mark marks (.object marks fields) (anchoredFields fields)

/-- The nodes with a number among items. -/
def anchoredItems : List Node → List (Nat × Node)
  | [] => []
  | item :: items => anchored item ++ anchoredItems items

/-- The nodes with a number among fields. -/
def anchoredFields : List (Node × Node) → List (Nat × Node)
  | [] => []
  | (key, value) :: fields => anchored key ++ anchored value ++ anchoredFields fields

end

mutual

/-- How many scalars, aliases, beginnings and ends a node consists of. -/
def size : Node → Nat
  | .alias _ => 1
  | .scalar _ _ _ => 1
  | .list _ items => 2 + sizeItems items
  | .object _ fields => 2 + sizeFields fields

/-- The size of items. -/
def sizeItems : List Node → Nat
  | [] => 0
  | item :: items => size item + sizeItems items

/-- The size of fields. -/
def sizeFields : List (Node × Node) → Nat
  | [] => 0
  | (key, value) :: fields => size key + size value + sizeFields fields

end

end Node

/-- What is left of the tokens, and what is known of the document. -/
structure Outline where
  tokens : List Token
  /-- The numbers of the names of anchors. -/
  names : Named Nat
  /-- The meanings of the handles of tags. -/
  handles : List (List Char × Tag)

/-- A part of the reading of a document, which may find a fault. -/
abbrev Reading (α : Type) := StateT Outline Option α

namespace Reading

/-- The next token. -/
def peek? : Reading (Option Token) := do return (← get).tokens.head?

/-- Goes past the next token. -/
def skip : Reading Unit := modify fun s => { s with tokens := s.tokens.tail }

/-- Whether the next token is `t`. -/
def sees (t : Token) : Reading Bool := do return (← peek?) = some t

/-- Goes past the next token if it is `t`. -/
def skipIf (t : Token) : Reading Bool := do
  if ← sees t then
    skip
    return true
  else return false

/-- Whether the next token is one of these. -/
def seesAny (ts : List Token) : Reading Bool := do
  match ← peek? with
  | some t => return t ∈ ts
  | none => return false

/-- Gives the next number to a name. -/
def number (name : String) : Reading Nat := fun s =>
  let n := s.names.length
  some (n, { s with names := s.names.put name n })

/-- The number that a name has. -/
def numberOf (name : String) : Reading Nat := fun s =>
  (Named.get? s.names name).map (·, s)

/-- An anchor, if one stands here. -/
def anchor? : Reading (Option String) := do
  match ← peek? with
  | some (.anchor name) =>
    skip
    return some name
  | _ => return none

/-- A tag, if one stands here, with its handle replaced by what it stands for. -/
def tag? : Reading (Option Tag) := do
  match ← peek? with
  | some (.tag [] suffix) =>
    skip
    return some suffix
  | some (.tag handle suffix) =>
    skip
    match (← get).handles.lookup handle with
    | some meaning => return some (meaning ++ suffix)
    | none => failure
  | _ => return none

/-- An anchor and a tag, in either order. -/
def properties : Reading (Option String × Option Tag) := do
  match ← anchor? with
  | some name => return (some name, ← tag?)
  | none =>
    let tag ← tag?
    return (← anchor?, tag)

/-- The tag `!` says no more of a scalar than no tag. -/
def scalarTag (tag : Option Tag) : Option Tag :=
  if tag = some (bytesOf ['!']) then none else tag

/-- A node, or none if one of these tokens stands in its place. -/
def leftOut (ends : List Token) (node : Reading Node) : Reading Node := do
  if ← seesAny ends then return .empty else node

mutual

/-- A node. Only in `lines` may it be laid out in lines, and only with `level` may the
items of a list stand at the column of what it stands in. -/
def node (lines level : Bool) : Nat → Reading Node
  | 0 => failure
  | n + 1 => do
    if let some (.alias name) ← peek? then
      skip
      return .alias (← numberOf name)
    let (name, tag) ← properties
    let numbered : Reading Marks := do return ⟨← name.mapM number, tag⟩
    match ← peek? with
    | some (.scalar plain text) =>
      skip
      return .scalar ⟨(← numbered).anchor, scalarTag tag⟩ plain text
    | some .openList =>
      skip
      return .list (← numbered) (← flowItems true n)
    | some .openObject =>
      skip
      return .object (← numbered) (← flowFields true n)
    | t =>
      if level && t = some .dash then return .list (← numbered) (← levelItems n)
      else if lines && t = some .linesList then
        skip
        return .list (← numbered) (← lineItems n)
      else if lines && t = some .linesObject then
        skip
        return .object (← numbered) (← lineFields n)
      else if name.isSome || tag.isSome then return .scalar (← numbered) true ""
      else failure

/-- The items of a list in lines. -/
def lineItems : Nat → Reading (List Node)
  | 0 => failure
  | n + 1 => do
    if ← skipIf .linesEnd then return []
    guard (← skipIf .dash)
    let item ← leftOut [.dash, .linesEnd] (node true false n)
    return item :: (← lineItems n)

/-- The items of a list in lines that ends where its object goes on. -/
def levelItems : Nat → Reading (List Node)
  | 0 => failure
  | n + 1 => do
    if !(← skipIf .dash) then return []
    let item ← leftOut [.dash, .key, .value, .linesEnd] (node true false n)
    return item :: (← levelItems n)

/-- The fields of an object in lines. -/
def lineFields : Nat → Reading (List (Node × Node))
  | 0 => failure
  | n + 1 => do
    if ← skipIf .linesEnd then return []
    guard (← skipIf .key)
    let key ← leftOut [.key, .value, .linesEnd] (node true true n)
    let value ← if ← skipIf .value then
        leftOut [.key, .value, .linesEnd] (node true true n)
      else pure .empty
    return (key, value) :: (← lineFields n)

/-- The items of a list in brackets. An item may be a single field, whose key is left
out if a mark follows its question mark; that mark is passed over. -/
def flowItems (first : Bool) : Nat → Reading (List Node)
  | 0 => failure
  | n + 1 => do
    if ← skipIf .closeList then return []
    if !first then guard (← skipIf .comma)
    if ← skipIf .closeList then return []
    if ← skipIf .key then
      let key ← if ← seesAny [.value, .comma, .closeList] then
          skip
          pure .empty
        else node false false n
      let value ← if ← skipIf .value then
          leftOut [.comma, .closeList] (node false false n)
        else pure .empty
      return .object ⟨none, none⟩ [(key, value)] :: (← flowItems false n)
    else
      let item ← node false false n
      return item :: (← flowItems false n)

/-- The fields of an object in braces. A key may stand alone. -/
def flowFields (first : Bool) : Nat → Reading (List (Node × Node))
  | 0 => failure
  | n + 1 => do
    if ← skipIf .closeObject then return []
    if !first then guard (← skipIf .comma)
    if ← skipIf .closeObject then return []
    if ← skipIf .key then
      let key ← leftOut [.value, .comma, .closeObject] (node false false n)
      let value ← if ← skipIf .value then
          leftOut [.comma, .closeObject] (node false false n)
        else pure .empty
      return (key, value) :: (← flowFields false n)
    else
      let key ← node false false n
      return (key, .empty) :: (← flowFields false n)

end

/-- The directives of a document: at most one version, which must be 1.1 or 1.2, and the
meaning of each handle once. -/
def directives (versionKnown : Bool) (handles : List (List Char × Tag)) :
    List Token → Option (List (List Char × Tag) × List Token)
  | .version major minor :: rest =>
    if versionKnown || major ≠ 1 || (minor ≠ 1 && minor ≠ 2) then none
    else directives true handles rest
  | .handle name meaning :: rest =>
    if (handles.lookup name).isSome then none
    else directives versionKnown ((name, meaning) :: handles) rest
  | rest => some (handles, rest)

/-- The handles that are known in every document, unless it says otherwise. -/
def knownHandles : List (List Char × Tag) :=
  [(['!'], bytesOf ['!']), (['!', '!'], bytesOf "tag:yaml.org,2002:".toList)]

/-- Whether tokens begin with a directive. -/
def beginsWithDirective : List Token → Bool
  | .version _ _ :: _ => true
  | .handle _ _ :: _ => true
  | _ => false

/-- The document that tokens begin with, and the tokens after it. -/
def document? (tokens : List Token) : Option (Node × List Token) := do
  let (handles, rest) ← directives false [] tokens
  let explicit := beginsWithDirective tokens || rest.head? = some .documentStart
  guard (!explicit || rest.head? = some .documentStart)
  let body := if explicit then rest.tail else rest
  let ends := explicit && match body with
    | [] => true
    | t :: _ => t = .documentStart || t = .documentEnd || beginsWithDirective body
  if ends then some (.empty, body)
  else
    let outline : Outline := ⟨body, [], handles ++ knownHandles⟩
    (node true false (4 * body.length + 4) outline).map fun (node, s) => (node, s.tokens)

end Reading

/-- The document that tokens form, or nothing if there are none. A second document is
refused, even an empty one. -/
def Node.ofTokens? (tokens : List Token) : Option (Option Node) :=
  if tokens.isEmpty then some none
  else
    (Reading.document? tokens).bind fun (node, rest) =>
      if rest.all (· = .documentEnd) then some (some node) else none

end Yaml
end Stepwise

/-
# Tokens

The tokens of a YAML text. Indentation shows as tokens too: a list or an object that is
laid out in lines has a token where it begins and one where it ends.

Key definitions: `Yaml.Token`, `Yaml.Tag`.
-/
namespace Stepwise
namespace Yaml

/-- A tag, as bytes, since it may spell any byte. -/
abbrev Tag := List UInt8

/-- The bytes of a text. -/
def bytesOf (cs : List Char) : Tag := (String.ofList cs).toUTF8.toList

/-- A token of a text. -/
inductive Token where
  /-- The version a document is written in. -/
  | version (major minor : Nat)
  /-- What a handle of tags stands for. -/
  | handle (name : List Char) (meaning : Tag)
  | documentStart
  | documentEnd
  /-- A list in lines begins. -/
  | linesList
  /-- An object in lines begins. -/
  | linesObject
  /-- A list or an object in lines ends. -/
  | linesEnd
  /-- The bracket before a list. -/
  | openList
  | closeList
  /-- The brace before an object. -/
  | openObject
  | closeObject
  /-- The dash before an item. -/
  | dash
  | comma
  /-- A key follows. -/
  | key
  /-- A value follows. -/
  | value
  | alias (name : String)
  | anchor (name : String)
  /-- A tag: its handle, empty if it is written out in full, and the rest. -/
  | tag (handle : List Char) (suffix : Tag)
  | scalar (plain : Bool) (text : String)
  deriving Repr, DecidableEq

end Yaml
end Stepwise

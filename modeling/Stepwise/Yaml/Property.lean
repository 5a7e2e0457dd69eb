/-
# Names, tags and directives

A node may carry an anchor and a tag, and a document may begin with directives. A tag is
written out in full between angle brackets, or begins with a handle whose meaning is
put in its place. Bytes may be escaped in it.

Key definitions: `Yaml.Cursor.takeName?`, `Yaml.Cursor.takeTag?`,
`Yaml.Cursor.takeDirective?`.
-/
import Stepwise.Yaml.Cursor
import Stepwise.Yaml.Token

namespace Stepwise
namespace Yaml
namespace Cursor

/-- The characters that may follow a name without a gap. -/
def endsName (c : Char) : Bool :=
  c = '?' || c = ':' || c = ',' || c = ']' || c = '}' || c = '%' || c = '@' || c = '\x60'

/-- The name of an anchor or an alias, after its mark. -/
def takeName? (c : Cursor) : Option (String × Cursor) :=
  let (name, c) := (c.skip 1).takeWhile isNameChar
  if !name.isEmpty && (c.gapAt 0 || c.seesClass endsName) then
    some (String.ofList name, c)
  else none

/-- The characters of tags; some are allowed only in one that is written in full. -/
def isTagChar (full : Bool) (c : Char) : Bool :=
  isNameChar c || c = ';' || c = '/' || c = '?' || c = ':' || c = '@' || c = '&' ||
    c = '=' || c = '+' || c = '$' || c = '.' || c = '%' || c = '!' || c = '~' ||
    c = '*' || c = '\x27' || c = '(' || c = ')' ||
    (full && (c = ',' || c = '[' || c = ']'))

/-- How many bytes follow the first byte of a character, told by that byte. -/
def bytesAfter? (n : Nat) : Option Nat :=
  if n < 0x80 then some 0
  else if 0xC0 ≤ n ∧ n < 0xE0 then some 1
  else if 0xE0 ≤ n ∧ n < 0xF0 then some 2
  else if 0xF0 ≤ n ∧ n < 0xF8 then some 3
  else none

/-- The bytes of the characters of a tag. `due` counts the escaped bytes that must
follow to complete a character. -/
def tagBytes? : Nat → List Char → Option Tag
  | due, '%' :: x :: y :: rest =>
    (hexNumber? [x, y]).bind fun n =>
      if due = 0 then
        (bytesAfter? n).bind fun due => (tagBytes? due rest).map (UInt8.ofNat n :: ·)
      else if 0x80 ≤ n ∧ n < 0xC0 then
        (tagBytes? (due - 1) rest).map (UInt8.ofNat n :: ·)
      else none
  | 0, x :: rest => if x = '%' then none else (tagBytes? 0 rest).map (bytesOf [x] ++ ·)
  | 0, [] => some []
  | _, _ => none

/-- A run of characters of tags. It may be empty only if `head` says so. -/
def takeTagText? (full mayBeEmpty : Bool) (c : Cursor) : Option (Tag × Cursor) :=
  let (text, c) := c.takeWhile (isTagChar full)
  if text.isEmpty && !mayBeEmpty then none else (tagBytes? 0 text).map (·, c)

/-- What begins with an exclamation mark: a handle, if it ends in one too. -/
def takeHandle (c : Cursor) : List Char × Cursor :=
  let (name, c) := (c.skip 1).takeWhile isNameChar
  if c.sees '!' then ('!' :: (name ++ ['!']), c.skip 1) else ('!' :: name, c)

/-- Whether the text is a handle with a name. -/
def isNamedHandle (cs : List Char) : Bool := 2 ≤ cs.length && cs.getLast? = some '!'

/-- A tag in full. -/
def takeFullTag? (c : Cursor) : Option (Token × Cursor) :=
  (takeTagText? true false (c.skip 2)).bind fun (suffix, c) =>
    if c.sees '>' then some (.tag [] suffix, c.skip 1) else none

/-- A tag with a handle. A lone exclamation mark is a tag too. -/
def takeShortTag? (c : Cursor) : Option (Token × Cursor) :=
  let (head, c) := c.takeHandle
  if isNamedHandle head then
    (takeTagText? false false c).map fun (suffix, c) => (.tag head suffix, c)
  else
    (takeTagText? false true c).map fun (more, c) =>
      let suffix := bytesOf head.tail ++ more
      if suffix.isEmpty then (.tag [] (bytesOf ['!']), c) else (.tag ['!'] suffix, c)

/-- The tag here. A gap must follow it, or inside of brackets a comma. -/
def takeTag? (flow : Bool) (c : Cursor) : Option (Token × Cursor) :=
  (if c.peek? 1 = some '<' then c.takeFullTag? else c.takeShortTag?).bind fun (t, c) =>
    if c.gapAt 0 || (flow && c.sees ',') then some (t, c) else none

/-- A number of at most nine digits. -/
def takeVersionPart? (c : Cursor) : Option (Nat × Cursor) :=
  let (digits, c) := c.takeWhile Char.isDigit
  if digits.isEmpty || 9 < digits.length then none
  else some (digits.foldl (fun n d => 10 * n + (d.toNat - '0'.toNat)) 0, c)

/-- The version in a directive. -/
def takeVersion? (c : Cursor) : Option (Token × Cursor) :=
  (c.skipWhile isBlank).takeVersionPart?.bind fun (major, c) =>
    if c.sees '.' then
      (c.skip 1).takeVersionPart?.map fun (minor, c) => (.version major minor, c)
    else none

/-- The handle and its meaning in a directive. -/
def takeHandleMeaning? (c : Cursor) : Option (Token × Cursor) :=
  let c := c.skipWhile isBlank
  let (name, after) := c.takeHandle
  if c.sees '!' && (name = ['!'] || isNamedHandle name) && after.seesClass isBlank then
    (takeTagText? true false (after.skipWhile isBlank)).bind fun (meaning, c) =>
      if c.gapAt 0 then some (.handle name meaning, c) else none
  else none

/-- The directive here, with the rest of its line. -/
def takeDirective? (c : Cursor) : Option (Token × Cursor) :=
  let (name, c) := (c.skip 1).takeWhile isNameChar
  let body :=
    if !c.gapAt 0 then none
    else if name = "YAML".toList then c.takeVersion?
    else if name = "TAG".toList then c.takeHandleMeaning?
    else none
  body.bind fun (t, c) => c.finishLine?.map (t, ·)

end Cursor
end Yaml
end Stepwise

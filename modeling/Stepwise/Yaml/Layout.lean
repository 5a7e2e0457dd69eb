/-
# The tokens of a text

A text is cut into tokens from left to right. A line that is indented further than what
it stands in begins a list or an object, and one that is indented less ends it. Whether
a scalar is a key shows only at the colon after it, which must stand in the same line
and at most 1024 characters further on; the tokens that a key needs are then put in
front of it.

Key definitions: `Yaml.Layout`, `Yaml.Layout.token?`, `Yaml.Token.ofText?`.
-/
import Stepwise.Yaml.BlockText
import Stepwise.Yaml.FlowText
import Stepwise.Yaml.Property

namespace Stepwise
namespace Yaml

/-- A place where a key may have begun. -/
structure KeyPlace where
  /-- How many tokens stand before it. -/
  before : Nat
  /-- Whether nothing but a key may stand there. -/
  required : Bool
  index : Nat
  line : Nat
  column : Nat
  deriving Repr

/-- The state of the cut. Columns count from one here; zero is the column of the text
as a whole. -/
structure Layout where
  cursor : Cursor
  /-- The tokens found, the last first, and how many they are. -/
  tokens : List Token
  count : Nat
  /-- The column of the innermost list or object in lines, and those around it. -/
  indent : Nat
  outer : List Nat
  /-- Whether a key may begin here. -/
  keyAllowed : Bool
  /-- The last place where a key may have begun, outside of brackets or inside of the
  innermost ones. -/
  keyPlace : Option KeyPlace
  /-- The same for the brackets around, the innermost first. -/
  brackets : List (Option KeyPlace)

namespace Layout

/-- Before the first token. -/
def start (text : List Char) : Layout := ⟨.start text, [], 0, 0, [], true, none, []⟩

/-- Whether the place is inside of brackets. -/
def inFlow (s : Layout) : Bool := !s.brackets.isEmpty

/-- The column here. -/
def column (s : Layout) : Nat := s.cursor.column + 1

/-- One more token. -/
def push (s : Layout) (t : Token) : Layout :=
  { s with tokens := t :: s.tokens, count := s.count + 1 }

/-- One more token, which `n` characters of the line spell. -/
def pushMark (s : Layout) (t : Token) (n : Nat) : Layout :=
  { s.push t with cursor := s.cursor.skip n }

/-- One more token, after which the text goes on at `c`. -/
def pushTo (s : Layout) (t : Token) (c : Cursor) : Layout :=
  { s.push t with cursor := c }

/-- One more token, in front of all but the first `before` ones. -/
def insertAt (s : Layout) (before : Nat) (t : Token) : Layout :=
  let after := s.count - before
  { s with tokens := s.tokens.take after ++ t :: s.tokens.drop after, count := s.count + 1 }

/-- Ends the lists and objects in lines that stand right of a column. -/
def unwind (column : Nat) (s : Layout) : List Nat → Layout
  | [] => s
  | outer :: rest =>
    if column < s.indent then
      unwind column { s.push .linesEnd with indent := outer, outer := rest } rest
    else s

/-- Ends the lists and objects that a line at this column ends, outside of brackets. -/
def unwindTo (s : Layout) (column : Nat) : Layout :=
  if s.inFlow then s else s.unwind column s.outer

/-- Begins a list or an object in lines at a column, if it stands right of all others;
`before` tokens stand before it. -/
def beginLines (s : Layout) (column before : Nat) (t : Token) : Layout :=
  if s.inFlow || column ≤ s.indent then s
  else { s.insertAt before t with indent := column, outer := s.indent :: s.outer }

/-- Forgets the place where a key may have begun; a required key cannot be missing. -/
def dropKey? (s : Layout) : Option Layout :=
  if s.keyPlace.any (·.required) then none else some { s with keyPlace := none }

/-- Notes that a key may begin here. -/
def noteKey? (s : Layout) : Option Layout :=
  if s.keyAllowed then
    s.dropKey?.map fun s =>
      { s with
        keyPlace := some
          { before := s.count
            required := !s.inFlow && s.indent = s.column
            index := s.cursor.index
            line := s.cursor.line
            column := s.column } }
  else some s

/-- Whether a place is too far back for a key. -/
def isStale (s : Layout) (k : KeyPlace) : Bool :=
  k.line < s.cursor.line || k.index + 1024 < s.cursor.index

/-- Forgets the places that are too far back; a required key cannot be missing. -/
def dropStale? (s : Layout) : Option Layout :=
  let stale (k : Option KeyPlace) : Bool := k.any s.isStale
  let forget (k : Option KeyPlace) : Option KeyPlace := if stale k then none else k
  if (s.keyPlace :: s.brackets).any fun k => stale k && k.any (·.required) then none
  else
    some { s with keyPlace := forget s.keyPlace, brackets := s.brackets.map forget }

/-- Goes to the next token, past blanks, comments and breaks. Where a key may begin
outside of brackets, tabs are no blanks. -/
def skipGap : Nat → Layout → Layout
  | 0, s => s
  | n + 1, s =>
    let c := s.cursor
    let c := if c.column = 0 && c.sees '\ufeff' then c.skip 1 else c
    let tabs := s.inFlow || !s.keyAllowed
    let c := (c.skipWhile fun x => x = ' ' || (tabs && x = '\t')).skipComment
    if c.seesClass isBreak then
      skipGap n { s with cursor := c.takeBreak.2, keyAllowed := s.keyAllowed || !s.inFlow }
    else { s with cursor := c }

/-- A directive. -/
def directive? (s : Layout) : Option Layout := do
  let s ← (s.unwindTo 0).dropKey?
  let (t, c) ← s.cursor.takeDirective?
  pure { s.pushTo t c with keyAllowed := false }

/-- The mark of the beginning or the end of a document. -/
def documentMark? (s : Layout) (t : Token) : Option Layout := do
  let s ← (s.unwindTo 0).dropKey?
  pure { s.pushMark t 3 with keyAllowed := false }

/-- An opening bracket. -/
def openBracket? (s : Layout) (t : Token) : Option Layout := do
  let s ← s.noteKey?
  pure { s.pushMark t 1 with
    keyAllowed := true, keyPlace := none, brackets := s.keyPlace :: s.brackets }

/-- A closing bracket. -/
def closeBracket? (s : Layout) (t : Token) : Option Layout := do
  let s ← s.dropKey?
  let s := { s.pushMark t 1 with keyAllowed := false }
  pure <| match s.brackets with
    | [] => s
    | k :: rest => { s with keyPlace := k, brackets := rest }

/-- A comma. -/
def comma? (s : Layout) : Option Layout := do
  let s ← s.dropKey?
  pure { s.pushMark .comma 1 with keyAllowed := true }

/-- The dash before an item. -/
def dash? (s : Layout) : Option Layout := do
  guard (s.inFlow || s.keyAllowed)
  let s ← (s.beginLines s.column s.count .linesList).dropKey?
  pure { s.pushMark .dash 1 with keyAllowed := true }

/-- The question mark before a key. -/
def keyMark? (s : Layout) : Option Layout := do
  guard (s.inFlow || s.keyAllowed)
  let s ← (s.beginLines s.column s.count .linesObject).dropKey?
  pure { s.pushMark .key 1 with keyAllowed := !s.inFlow }

/-- The colon before a value. If a key may have begun before it, it has. -/
def valueMark? (s : Layout) : Option Layout :=
  match s.keyPlace with
  | some k =>
    let s := (s.insertAt k.before .key).beginLines k.column k.before .linesObject
    some { s.pushMark .value 1 with keyPlace := none, keyAllowed := false }
  | none => do
    guard (s.inFlow || s.keyAllowed)
    let s := s.beginLines s.column s.count .linesObject
    pure { s.pushMark .value 1 with keyAllowed := !s.inFlow }

/-- An anchor or an alias. -/
def name? (s : Layout) (t : String → Token) : Option Layout := do
  let s ← s.noteKey?
  let (name, c) ← s.cursor.takeName?
  pure { s.pushTo (t name) c with keyAllowed := false }

/-- A tag. -/
def tag? (s : Layout) : Option Layout := do
  let s ← s.noteKey?
  let (t, c) ← s.cursor.takeTag? s.inFlow
  pure { s.pushTo t c with keyAllowed := false }

/-- A literal or folded scalar. -/
def block? (s : Layout) (folded : Bool) : Option Layout := do
  let s ← s.dropKey?
  let (text, c) ← s.cursor.takeBlock? folded s.indent
  pure { s.pushTo (.scalar false text) c with keyAllowed := true }

/-- A quoted scalar. -/
def quoted? (s : Layout) (quote : Char) : Option Layout := do
  let s ← s.noteKey?
  let (text, c) ← s.cursor.takeQuoted? quote
  pure { s.pushTo (.scalar false text) c with keyAllowed := false }

/-- A plain scalar. -/
def plain? (s : Layout) : Option Layout := do
  let s ← s.noteKey?
  let (text, broken, c) ← s.cursor.takePlain? s.inFlow s.indent
  pure { s.pushTo (.scalar true text) c with keyAllowed := broken }

/-- Whether a plain scalar cannot begin with this character, or only in front of
another that is no gap. -/
def isMark (c : Char) : Bool :=
  isFlowMark c || c = '-' || c = '?' || c = ':' || c = '#' || c = '&' || c = '*' ||
    c = '!' || c = '|' || c = '>' || c = '\x27' || c = '"' || c = '%' || c = '@' ||
    c = '\x60'

/-- The next token, which begins with `x`. -/
def token? (s : Layout) (x : Char) : Option Layout :=
  let c := s.cursor
  let beforeGap := c.gapAt 1
  if c.column = 0 && x = '%' then s.directive?
  else if c.atMark '-' then s.documentMark? .documentStart
  else if c.atMark '.' then s.documentMark? .documentEnd
  else
    match x with
    | '[' => s.openBracket? .openList
    | '{' => s.openBracket? .openObject
    | ']' => s.closeBracket? .closeList
    | '}' => s.closeBracket? .closeObject
    | ',' => s.comma?
    | '-' => if beforeGap then s.dash? else s.plain?
    | '?' => if s.inFlow || beforeGap then s.keyMark? else s.plain?
    | ':' => if s.inFlow || beforeGap then s.valueMark? else s.plain?
    | '*' => s.name? .alias
    | '&' => s.name? .anchor
    | '!' => s.tag?
    | '\x27' => s.quoted? x
    | '"' => s.quoted? x
    | '|' => if s.inFlow then none else s.block? false
    | '>' => if s.inFlow then none else s.block? true
    | _ => if isBlank x || isMark x then none else s.plain?

/-- Goes to the next token and ends the lists and objects that its line ends. -/
def advance? (s : Layout) : Option Layout :=
  (s.skipGap (s.cursor.rest.length + 1)).dropStale?.map fun s => s.unwindTo s.column

/-- The end of the text. -/
def finish? (s : Layout) : Option Layout := (s.unwindTo 0).dropKey?

/-- All tokens of the text. -/
def run? : Nat → Layout → Option Layout
  | 0, s => s.finish?
  | n + 1, s =>
    s.advance?.bind fun s =>
      match s.cursor.rest.head? with
      | some x => (s.token? x).bind (run? n)
      | none => s.finish?

end Layout

/-- The tokens of a text. -/
def Token.ofText? (text : List Char) : Option (List Token) :=
  if text.all isPrintable then
    (Layout.run? (text.length + 1) (.start text)).map (·.tokens.reverse)
  else none

end Yaml
end Stepwise

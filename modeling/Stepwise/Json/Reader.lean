/-
# Reading JSON

The reader takes a text one character at a time and keeps the containers that are
still open on a stack, so any depth of nesting is read; a limit can be set. A text
that is no JSON is refused with the first fault and its place. The value read has
its fields as written; `Json.read` gives its canonical form.

Key definitions: `Json.ReadFault`, `Json.ReadError`, `Json.Reader`,
`Json.Reader.step`, `Json.Reader.finish`, `Json.readWritten`, `Json.read`.
-/
import Stepwise.Text.Position
import Stepwise.Json.NumberScan

namespace Stepwise
namespace Json

open Text (Position)

/-- Why a text is no JSON. -/
inductive ReadFault where
  | endInValue
  | endInList
  | endInObject
  | endInString
  | expectedValue
  | expectedWord
  | expectedColon
  | expectedListEnd
  | expectedObjectEnd
  | keyNotString
  | trailingComma
  | trailingCharacters
  | invalidNumber
  | numberOutOfRange
  | invalidEscape
  | controlCharacter
  | loneSurrogate
  | unfinishedSurrogate
  | tooDeep
  deriving DecidableEq, Repr

/-- The words for a fault. -/
def ReadFault.message : ReadFault → String
  | .endInValue => "EOF while parsing a value"
  | .endInList => "EOF while parsing a list"
  | .endInObject => "EOF while parsing an object"
  | .endInString => "EOF while parsing a string"
  | .expectedValue => "expected value"
  | .expectedWord => "expected ident"
  | .expectedColon => "expected `:`"
  | .expectedListEnd => "expected `,` or `]`"
  | .expectedObjectEnd => "expected `,` or `\x7d`"
  | .keyNotString => "key must be a string"
  | .trailingComma => "trailing comma"
  | .trailingCharacters => "trailing characters"
  | .invalidNumber => "invalid number"
  | .numberOutOfRange => "number out of range"
  | .invalidEscape => "invalid escape"
  | .controlCharacter => "control character (\\u0000-\\u001F) found while parsing a string"
  | .loneSurrogate => "lone leading surrogate in hex escape"
  | .unfinishedSurrogate => "unexpected end of hex escape"
  | .tooDeep => "recursion limit exceeded"

/-- A fault and the place where it was found. -/
structure ReadError where
  fault : ReadFault
  position : Position
  deriving DecidableEq, Repr

/-- The words for an error, with its place. -/
def ReadError.message (e : ReadError) : String :=
  e.fault.message ++ " at line " ++ toString e.position.line ++ " column " ++
    toString e.position.column

/-- A container that is still open, with what it holds so far, the last first. -/
inductive Frame where
  /-- A list. -/
  | list (items : List Json)
  /-- An object before a key or after a value. -/
  | object (fields : Fields)
  /-- An object whose last key has no value yet. -/
  | field (fields : Fields) (key : String)

/-- What may stand next. -/
inductive Expected where
  /-- A value. -/
  | value
  /-- The first item of a list, or its end. -/
  | firstItem
  /-- An item after a comma. -/
  | nextItem
  /-- The first key of an object, or its end. -/
  | firstKey
  /-- A key after a comma. -/
  | nextKey
  /-- The colon after a key. -/
  | colon (key : String)
  /-- A comma or the end of the container. -/
  | separator
  /-- Nothing but blanks. -/
  | nothing (root : Json)

/-- Where in a string the reader stands. -/
inductive StringPhase where
  | plain
  /-- After a backslash. -/
  | escape
  /-- In the four bytes after `\u`: how many are left, the number they form so far if
  they are digits, and the leading surrogate before them. -/
  | hex (left : Nat) (code : Option Nat) (leading : Option Nat)
  /-- After a leading surrogate, before the backslash of the trailing one. -/
  | pairBackslash (leading : Nat)
  /-- After that backslash. -/
  | pairMark (leading : Nat)

/-- A part of the text that is being read. -/
inductive Mode where
  | between (e : Expected)
  /-- In `null`, `true` or `false`, with the characters that must follow. -/
  | word (rest : List Char) (v : Json)
  | number (scan : NumberScan)
  /-- In a string, with its characters so far, the last first. -/
  | string (phase : StringPhase) (acc : List Char) (isKey : Bool)

/-- The state of the reader. -/
structure Reader where
  mode : Mode
  /-- The open containers, the innermost first. -/
  stack : List Frame
  position : Position

/-- JSON knows four blanks. -/
def isSpace (c : Char) : Bool := c = ' ' || c = '\n' || c = '\t' || c = '\r'

/-- The value of a hexadecimal digit. -/
def hexValue? (c : Char) : Option Nat :=
  if c.isDigit then some (c.toNat - '0'.toNat)
  else if 'a' ≤ c ∧ c ≤ 'f' then some (c.toNat - 'a'.toNat + 10)
  else if 'A' ≤ c ∧ c ≤ 'F' then some (c.toNat - 'A'.toNat + 10)
  else none

namespace Reader

/-- Before the first character. -/
def start : Reader := ⟨.between .value, [], .start⟩

/-- Puts a finished value into the innermost open container. -/
def deliver (v : Json) : List Frame → Mode × List Frame
  | [] => (.between (.nothing v), [])
  | .list items :: rest => (.between .separator, .list (v :: items) :: rest)
  | .field fields key :: rest => (.between .separator, .object ((key, v) :: fields) :: rest)
  | .object fields :: rest => (.between .separator, .object fields :: rest)

/-- The state after a finished value, the place unchanged. -/
def close (r : Reader) (v : Json) (stack : List Frame) : Reader :=
  let (mode, stack) := deliver v stack
  { r with mode := mode, stack := stack }

/-- The fault of a number. -/
def numberFault : NumberFault → ReadFault
  | .unfinished => .endInValue
  | .malformed => .invalidNumber
  | .outOfRange => .numberOutOfRange

/-- The fault of a text that ends here. -/
def endFault : Expected → List Frame → ReadFault
  | .firstItem, _ => .endInList
  | .firstKey, _ => .endInObject
  | .colon _, _ => .endInObject
  | .separator, .list _ :: _ => .endInList
  | .separator, _ => .endInObject
  | _, _ => .endInValue

/-- Opens a container unless the limit is reached. -/
def enter (limit : Option Nat) (r : Reader) (frame : Frame) (e : Expected) :
    Except ReadFault Reader :=
  if limit.any (· ≤ r.stack.length) then .error .tooDeep
  else .ok { r with mode := .between e, stack := frame :: r.stack }

/-- The first character of a value. -/
def beginValue (limit : Option Nat) (r : Reader) (c : Char) : Except ReadFault Reader :=
  match c with
  | 'n' => .ok { r with mode := .word ['u', 'l', 'l'] .null }
  | 't' => .ok { r with mode := .word ['r', 'u', 'e'] (.bool true) }
  | 'f' => .ok { r with mode := .word ['a', 'l', 's', 'e'] (.bool false) }
  | '"' => .ok { r with mode := .string .plain [] false }
  | '[' => enter limit r (.list []) .firstItem
  | '{' => enter limit r (.object []) .firstKey
  | _ =>
    match NumberScan.start c with
    | some scan => .ok { r with mode := .number scan }
    | none => .error .expectedValue

/-- The first character of a key. -/
def beginKey (r : Reader) (c : Char) : Except ReadFault Reader :=
  if c = '"' then .ok { r with mode := .string .plain [] true } else .error .keyNotString

/-- The end of a list or an object, if `c` closes the innermost one. -/
def closing? (c : Char) : List Frame → Option (Json × List Frame)
  | .list items :: rest => if c = ']' then some (.arr items.reverse, rest) else none
  | .object fields :: rest => if c = '}' then some (.obj fields.reverse, rest) else none
  | _ => none

/-- A character other than a blank between values. -/
def stepBetween (limit : Option Nat) (r : Reader) (e : Expected) (c : Char) :
    Except ReadFault Reader :=
  match e with
  | .value => beginValue limit r c
  | .firstItem =>
    match closing? c r.stack with
    | some (v, rest) => .ok (r.close v rest)
    | none => beginValue limit r c
  | .nextItem => if c = ']' then .error .trailingComma else beginValue limit r c
  | .firstKey =>
    match closing? c r.stack with
    | some (v, rest) => .ok (r.close v rest)
    | none => beginKey r c
  | .nextKey => if c = '}' then .error .trailingComma else beginKey r c
  | .colon key =>
    if c ≠ ':' then .error .expectedColon
    else
      match r.stack with
      | .object fields :: rest =>
        .ok { r with mode := .between .value, stack := .field fields key :: rest }
      | stack => .ok { r with mode := .between .value, stack := stack }
  | .separator =>
    match closing? c r.stack with
    | some (v, rest) => .ok (r.close v rest)
    | none =>
      match r.stack with
      | .list _ :: _ =>
        if c = ',' then .ok { r with mode := .between .nextItem } else .error .expectedListEnd
      | _ =>
        if c = ',' then .ok { r with mode := .between .nextKey } else .error .expectedObjectEnd
  | .nothing _ => .error .trailingCharacters

/-- The end of a string. -/
def closeString (r : Reader) (acc : List Char) (isKey : Bool) : Reader :=
  let s := String.ofList acc.reverse
  if isKey then { r with mode := .between (.colon s) } else r.close (.str s) r.stack

/-- The character that a one-letter escape stands for. -/
def escaped? : Char → Option Char
  | '"' => some '"'
  | '\\' => some '\\'
  | '/' => some '/'
  | 'b' => some '\x08'
  | 'f' => some '\x0c'
  | 'n' => some '\n'
  | 'r' => some '\r'
  | 't' => some '\t'
  | _ => none

/-- What the four digits of a `\u` escape mean. -/
def unicode (code : Nat) (leading : Option Nat) (acc : List Char) :
    Except ReadFault (StringPhase × List Char) :=
  match leading with
  | none =>
    if 0xDC00 ≤ code ∧ code ≤ 0xDFFF then .error .loneSurrogate
    else if 0xD800 ≤ code ∧ code ≤ 0xDBFF then .ok (.pairBackslash code, acc)
    else .ok (.plain, Char.ofNat code :: acc)
  | some high =>
    if 0xDC00 ≤ code ∧ code ≤ 0xDFFF then
      .ok (.plain, Char.ofNat (0x10000 + (high - 0xD800) * 0x400 + (code - 0xDC00)) :: acc)
    else .error .loneSurrogate

/-- A character inside a string other than the closing quote. -/
def stepString (phase : StringPhase) (acc : List Char) (c : Char) :
    Except ReadFault (StringPhase × List Char) :=
  match phase with
  | .plain =>
    if c = '\\' then .ok (.escape, acc)
    else if c.toNat < 0x20 then .error .controlCharacter
    else .ok (.plain, c :: acc)
  | .escape =>
    if c = 'u' then .ok (.hex 4 (some 0) none, acc)
    else
      match escaped? c with
      | some d => .ok (.plain, d :: acc)
      | none => .error .invalidEscape
  | .hex left code leading =>
    let code := code.bind fun n => (hexValue? c).map (16 * n + ·)
    if c.utf8Size < left then .ok (.hex (left - c.utf8Size) code leading, acc)
    else
      match code with
      | some n => unicode n leading acc
      | none => .error .invalidEscape
  | .pairBackslash high =>
    if c = '\\' then .ok (.pairMark high, acc) else .error .unfinishedSurrogate
  | .pairMark high =>
    if c = 'u' then .ok (.hex 4 (some 0) (some high), acc) else .error .unfinishedSurrogate

/-- The place of a fault that `c` causes. It counts the first byte of `c`, and all of
the four bytes after `\u`. -/
def faultPosition (r : Reader) (c : Char) : Position :=
  match r.mode with
  | .string (.hex left _ _) _ _ =>
    if left < c.utf8Size then r.position.forward left else r.position.advance c
  | _ => r.position.enter c

/-- One character, apart from its place. -/
def stepChar (limit : Option Nat) (r : Reader) (c : Char) : Except ReadFault Reader :=
  match r.mode with
  | .between e => if isSpace c then .ok r else stepBetween limit r e c
  | .word (d :: rest) v =>
    if c ≠ d then .error .expectedWord
    else if rest.isEmpty then .ok (r.close v r.stack)
    else .ok { r with mode := .word rest v }
  | .word [] v => .ok (r.close v r.stack)
  | .number _ => .ok r
  | .string phase acc isKey =>
    match phase, c with
    | .plain, '"' => .ok (r.closeString acc isKey)
    | _, _ => (stepString phase acc c).map fun p => { r with mode := .string p.1 p.2 isKey }

/-- One character. One that ends a number is read once more after it; a number out of
range is found before that character. -/
def step (limit : Option Nat) (r : Reader) (c : Char) : Except ReadError Reader :=
  let past := r.position.advance c
  let move (x : Except ReadFault Reader) : Except ReadError Reader :=
    match x with
    | .ok r' => .ok { r' with position := past }
    | .error fault => .error ⟨fault, r.faultPosition c⟩
  match r.mode with
  | .number scan =>
    match scan.step c with
    | .more scan' => .ok { r with mode := .number scan', position := past }
    | .fail fault => .error ⟨numberFault fault, r.position.enter c⟩
    | .stop =>
      match scan.value with
      | .error fault => .error ⟨numberFault fault, r.position⟩
      | .ok n => move (stepChar limit (r.close (.num n) r.stack) c)
  | _ => move (stepChar limit r c)

/-- All characters of a text. -/
def run (limit : Option Nat) : Reader → List Char → Except ReadError Reader
  | r, [] => .ok r
  | r, c :: cs =>
    match step limit r c with
    | .ok r' => run limit r' cs
    | .error e => .error e

/-- The value, once the text has ended. -/
def finish (r : Reader) : Except ReadError Json :=
  match r.mode with
  | .between (.nothing v) => .ok v
  | .between e => .error ⟨endFault e r.stack, r.position⟩
  | .word _ _ => .error ⟨.endInValue, r.position⟩
  | .string _ _ _ => .error ⟨.endInString, r.position⟩
  | .number scan =>
    match scan.value with
    | .error fault => .error ⟨numberFault fault, r.position⟩
    | .ok n =>
      match deliver (.num n) r.stack with
      | (.between (.nothing v), _) => .ok v
      | (_, stack) => .error ⟨endFault .separator stack, r.position⟩

end Reader

/-- The value a text denotes, its fields as written. -/
def readWritten (limit : Option Nat) (text : List Char) : Except ReadError Json :=
  match Reader.run limit .start text with
  | .ok r => r.finish
  | .error e => .error e

/-- The value a text denotes, in canonical form. -/
def read (limit : Option Nat) (text : List Char) : Except ReadError Json :=
  (readWritten limit text).map canonical

/-- How deep a text may nest where depth is limited. -/
def depthLimit : Option Nat := some 127

end Json
end Stepwise

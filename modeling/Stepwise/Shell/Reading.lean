/-
# Reading shell scripts

A script is read from left to right. Words end at blanks and at the marks of the
language unless they are quoted; a word that opens a construct does so only where a
command may begin.

Key definitions: `Shell.Source`, `Shell.Reading`, `Shell.Block.ofText?`.
-/
import Stepwise.Shell.Format
import Stepwise.Shell.Syntax
import Stepwise.Text.Utf8

namespace Stepwise
namespace Shell

/-- What is left of a script, and the number of the line. -/
structure Source where
  rest : List Char
  line : Nat

/-- A part of the reading of a script, which may find a fault. -/
abbrev Reading (α : Type) := StateT Source Option α

/-- A space or a tab. -/
def isBlank (c : Char) : Bool := c = ' ' || c = '\t'

/-- The characters that end a word. -/
def isMark (c : Char) : Bool :=
  isBlank c || c = '\n' || c = ';' || c = '&' || c = '|' || c = '<' || c = '>' ||
    c = '(' || c = ')'

/-- The characters of the names of variables. -/
def isNameChar (c : Char) : Bool := c.isAlphanum || c = '_'

/-- The words that end a block. -/
def closingWords : List String := ["do", "done", "then", "else", "elif", "fi", "\x7d"]

namespace Reading

/-- What is left of the script. -/
def rest : Reading (List Char) := do return (← get).rest

/-- Goes `n` characters on. -/
def skip (n : Nat) : Reading Unit := modify fun s =>
  ⟨s.rest.drop n, s.line + (s.rest.take n).countP (· = '\n')⟩

/-- Whether the script goes on with a text. -/
def sees (text : String) : Reading Bool := do return text.toList.isPrefixOf (← rest)

/-- Goes past a text if the script goes on with it. -/
def skipIf (text : String) : Reading Bool := do
  if ← sees text then
    skip text.length
    return true
  else return false

/-- The longest run of characters of a class. -/
def takeWhile (p : Char → Bool) : Reading String := do
  let taken := (← rest).takeWhile p
  skip taken.length
  return String.ofList taken

/-- Goes past blanks, and breaks that are escaped. -/
def skipBlanks : Nat → Reading Unit
  | 0 => return
  | n + 1 => do
    let _ ← takeWhile isBlank
    if ← skipIf "\\\n" then skipBlanks n

/-- Goes past blanks, breaks, semicolons and comments. -/
def skipSeparators : Nat → Reading Unit
  | 0 => return
  | n + 1 => do
    let blanks ← takeWhile fun c => isBlank c || c = '\n' || c = ';'
    if ← sees "#" then
      let _ ← takeWhile (· ≠ '\n')
      skipSeparators n
    else if ← skipIf "\\\n" then skipSeparators n
    else if blanks = "" then return
    else skipSeparators n

/-- The next word as it is written, if it is not quoted. -/
def peekWord : Reading String := do
  return String.ofList ((← rest).takeWhile fun c => !isMark c)

/-- Whether a block ends here. -/
def atBlockEnd : Reading Bool := do
  let cs ← rest
  return cs.isEmpty || cs.head? = some ')' || closingWords.contains (← peekWord)

/-- Goes past a word that must stand here. -/
def expectWord (word : String) : Reading Unit := do
  guard ((← peekWord) = word)
  skip word.length

/-- The text up to the two closing parentheses of a term. -/
def termText : Nat → Nat → List Char → Reading String
  | 0, _, _ => failure
  | n + 1, depth, acc => do
    match ← rest with
    | ')' :: ')' :: _ =>
      if depth = 0 then
        skip 2
        return String.ofList acc.reverse
      else
        skip 1
        termText n (depth - 1) (')' :: acc)
    | c :: _ =>
      skip 1
      let depth := if c = '(' then depth + 1 else if c = ')' then depth - 1 else depth
      termText n depth (c :: acc)
    | [] => failure

/-- The name in braces or after a dollar sign. -/
def variableName : Reading String := do
  match ← rest with
  | c :: _ =>
    if c.isDigit || c = '#' || c = '?' || c = '$' || c = '@' || c = '*' then
      skip 1
      return c.toString
    else takeWhile isNameChar
  | [] => return ""

/-- The name and value of a setting, if a word begins with one. -/
def settingName? (cs : List Char) : Option String :=
  let name := cs.takeWhile isNameChar
  match name, cs.drop name.length with
  | c :: _, '=' :: _ => if c.isDigit then none else some (String.ofList name)
  | _, _ => none

/-- The text up to a quote that no backslash stands before, with its escapes replaced. -/
def escapedText : Nat → ByteArray → Reading String
  | 0, _ => failure
  | n + 1, acc => do
    match ← rest with
    | '\x27' :: _ =>
      skip 1
      return Text.decodeLossy acc
    | '\\' :: cs =>
      let (bytes, after) := escaped false cs
      skip (1 + cs.length - after.length)
      escapedText n (acc ++ bytes)
    | c :: _ =>
      skip 1
      escapedText n (acc ++ bytesOf [c])
    | [] => failure

/-- The text up to the next backtick that no backslash stands before. -/
def tickedText : Nat → List Char → Reading String
  | 0, _ => failure
  | n + 1, acc => do
    match ← rest with
    | '\x60' :: _ =>
      skip 1
      return String.ofList acc.reverse
    | '\\' :: c :: _ =>
      skip 2
      tickedText n (if c = '\x60' || c = '\\' || c = '$' then c :: acc else c :: '\\' :: acc)
    | c :: _ =>
      skip 1
      tickedText n (c :: acc)
    | [] => failure

/-- The lines up to one that is a given word, and what follows that line. -/
def linesUpTo (word : List Char) : Nat → List Char → Option (List Char × List Char)
  | 0, _ => none
  | n + 1, cs =>
    let line := cs.takeWhile (· ≠ '\n')
    let after := cs.drop (line.length + 1)
    if line = word then some ([], after)
    else if cs.length ≤ line.length then none
    else (linesUpTo word n after).map fun (lines, rest) => (line ++ '\n' :: lines, rest)

/-- The text that the lines after this one hold, up to one that is a given word. Nothing
in them is replaced. -/
def lineText : Reading String := do
  let quote := (← rest).head?.filter fun c => c = '\x27' || c = '"'
  if quote.isSome then skip 1
  let word ← takeWhile isNameChar
  guard (word ≠ "")
  if let some quote := quote then guard (← skipIf quote.toString)
  let cs ← rest
  let here := cs.takeWhile (· ≠ '\n')
  match linesUpTo word.toList (cs.length + 1) (cs.drop (here.length + 1)) with
  | none => failure
  | some (text, after) =>
    guard (quote.isSome || text.all fun c => c ≠ '$' && c ≠ '\x60' && c ≠ '\\')
    modify fun s => { s with rest := here ++ '\n' :: after }
    return String.ofList text

/-- The redirection here, if there is one. -/
def redirect? : Reading (Option (List Redirect)) := do
  let s ← get
  if ← skipIf "&>/dev/null" then return some [.discard 1, .discard 2]
  let digits ← takeWhile Char.isDigit
  let stream (default : Nat) : Nat := digits.toNat?.getD default
  if ← skipIf ">&-" then return some [.close (stream 1)]
  else if ← skipIf "<&-" then return some [.close (stream 0)]
  else if ← skipIf ">&" then
    let source ← takeWhile Char.isDigit
    match source.toNat? with
    | some source => return some [.copy (stream 1) source]
    | none => failure
  else if ← skipIf ">" then
    let _ ← skipIf ">"
    skipBlanks 1
    if ← skipIf "/dev/null" then return some [.discard (stream 1)]
    else if ← skipIf "/dev/stderr" then return some [.copy (stream 1) 2]
    else if ← skipIf "/dev/stdout" then return some [.copy (stream 1) 1]
    else failure
  else if ← skipIf "<<" then
    skipBlanks 1
    return some [.supply (← lineText)]
  else if ← skipIf "<" then
    skipBlanks 1
    if ← skipIf "/dev/null" then return some [.discard (stream 0)] else failure
  else
    set s
    return none

mutual

/-- What a dollar sign introduces. -/
def dollar (quoted : Bool) : Nat → Reading Part
  | 0 => failure
  | n + 1 => do
    skip 1
    if ← skipIf "((" then return .term (← termText (← rest).length 0 [])
    else if ← skipIf "(" then
      let body ← block n
      guard (← skipIf ")")
      return .capture body quoted
    else if ← skipIf "\x7b#" then
      let name ← variableName
      guard (← skipIf "\x7d")
      return .length name
    else if ← skipIf "\x7b" then
      let name ← variableName
      guard (name ≠ "")
      if ← skipIf ":-" then
        let fallback ← takeWhile fun c => isNameChar c || c = '.' || c = '/' || c = ' '
        guard (← skipIf "\x7d")
        return .valueOr name fallback quoted
      guard (← skipIf "\x7d")
      return .value name quoted
    else
      let name ← variableName
      return if name = "" then .text "$" quoted else .value name quoted

/-- What statements between backticks write. -/
def ticked (quoted : Bool) : Nat → Reading Part
  | 0 => failure
  | n + 1 => do
    skip 1
    let text ← tickedText ((← rest).length + 1) []
    let after ← get
    StateT.set { after with rest := text.toList }
    let body ← block n
    guard (← rest).isEmpty
    StateT.set after
    return .capture body quoted

/-- The parts of a word between double quotes, up to the closing one. -/
def quotedParts : Nat → Reading (List Part)
  | 0 => failure
  | n + 1 => do
    match ← rest with
    | '"' :: _ =>
      skip 1
      return []
    | '$' :: _ =>
      let part ← dollar true n
      return part :: (← quotedParts n)
    | '\\' :: c :: _ =>
      skip 2
      let kept :=
        if c = '\n' then ""
        else if c = '$' || c = '"' || c = '\\' || c = '\x60' then c.toString
        else String.ofList ['\\', c]
      return .text kept true :: (← quotedParts n)
    | '\x60' :: _ =>
      let part ← ticked true n
      return part :: (← quotedParts n)
    | c :: _ =>
      let text ← takeWhile fun c => !(c = '"' || c = '$' || c = '\\' || c = '\x60')
      guard (text ≠ "" || c = '\\')
      if text = "" then
        skip 1
        return .text "\\" true :: (← quotedParts n)
      return .text text true :: (← quotedParts n)
    | [] => failure

/-- The parts of the word here, none if no word stands here. -/
def wordParts : Nat → Reading (List Part)
  | 0 => failure
  | n + 1 => do
    match ← rest with
    | [] => return []
    | '\x27' :: _ =>
      skip 1
      let text ← takeWhile (· ≠ '\x27')
      guard (← skipIf "'")
      return .text text true :: (← wordParts n)
    | '"' :: _ =>
      skip 1
      let parts ← quotedParts n
      return .text "" true :: parts ++ (← wordParts n)
    | '$' :: '\x27' :: _ =>
      skip 2
      let text ← escapedText ((← rest).length + 1) .empty
      return .text text true :: (← wordParts n)
    | '$' :: _ =>
      let part ← dollar false n
      return part :: (← wordParts n)
    | '\\' :: c :: _ =>
      skip 2
      let parts ← wordParts n
      return if c = '\n' then parts else .text c.toString true :: parts
    | '\x60' :: _ =>
      let part ← ticked false n
      return part :: (← wordParts n)
    | c :: _ =>
      if isMark c then return []
      let text ← takeWhile fun c =>
        !(isMark c || c = '\x27' || c = '"' || c = '$' || c = '\\' || c = '\x60')
      if text = "" then
        skip 1
        return .text c.toString true :: (← wordParts n)
      return .text text false :: (← wordParts n)

/-- The words up to the end of a command. -/
def words : Nat → Reading (List Word)
  | 0 => failure
  | n + 1 => do
    skipBlanks n
    let word ← wordParts n
    if word.isEmpty then return [] else return word :: (← words n)

/-- The rest of a command that is no construct. -/
def simpleRest (line : Nat) (settings : List (String × Word)) (found : List Word)
    (redirects : List Redirect) : Nat → Reading Command
  | 0 => failure
  | n + 1 => do
    skipBlanks n
    match ← redirect? with
    | some more => simpleRest line settings found (redirects ++ more) n
    | none =>
      let cs ← rest
      match (if found.isEmpty then settingName? cs else none) with
      | some name =>
        skip (name.length + 1)
        let value ← wordParts n
        simpleRest line (settings ++ [(name, value)]) found redirects n
      | none =>
        let word ← wordParts n
        if word.isEmpty || (← rest).head? = some '(' then
          guard (word.isEmpty && !(settings.isEmpty && found.isEmpty && redirects.isEmpty))
          return .simple line settings found redirects
        else simpleRest line settings (found ++ [word]) redirects n

/-- The redirections after a construct. -/
def redirects : Nat → Reading (List Redirect)
  | 0 => failure
  | n + 1 => do
    skipBlanks n
    match ← redirect? with
    | some more => return more ++ (← redirects n)
    | none => return []

/-- The rest of a choice, after its first word. -/
def choice : Nat → Reading Command
  | 0 => failure
  | n + 1 => do
    let test ← block n
    expectWord "then"
    let body ← block n
    match ← peekWord with
    | "elif" =>
      skip 4
      return .choose test body [.mk .always false [← choice n]]
    | "else" =>
      skip 4
      let otherwise ← block n
      expectWord "fi"
      return .choose test body otherwise
    | _ =>
      expectWord "fi"
      return .choose test body []

/-- The command here. -/
def command : Nat → Reading Command
  | 0 => failure
  | n + 1 => do
    let line := (← get).line
    if ← skipIf "(" then
      let body ← block n
      guard (← skipIf ")")
      return .group true body (← redirects n)
    match ← peekWord with
    | "\x7b" =>
      skip 1
      let body ← block n
      expectWord "\x7d"
      return .group false body (← redirects n)
    | "for" =>
      skip 3
      skipBlanks n
      let name ← takeWhile isNameChar
      skipSeparators n
      expectWord "in"
      let items ← words n
      skipSeparators n
      expectWord "do"
      let body ← block n
      expectWord "done"
      return .group false [.mk .always false [.forEach name items body]] (← redirects n)
    | "if" =>
      skip 2
      let c ← choice n
      return .group false [.mk .always false [c]] (← redirects n)
    | "while" | "until" =>
      let expected := (← peekWord) = "while"
      skip 5
      let test ← block n
      expectWord "do"
      let body ← block n
      expectWord "done"
      return .group false [.mk .always false [.repeatWhile expected test body]]
        (← redirects n)
    | _ => simpleRest line [] [] [] n

/-- The commands of a pipeline. -/
def pipeline : Nat → Reading (List Command)
  | 0 => failure
  | n + 1 => do
    let c ← command n
    skipBlanks n
    if ← sees "||" then return [c]
    else if ← skipIf "|" then
      skipSeparators n
      return c :: (← pipeline n)
    else return [c]

/-- The statements from here to the end of a block, the first with a connector. -/
def statements (connector : Connector) : Nat → Reading Block
  | 0 => failure
  | n + 1 => do
    skipSeparators n
    if ← atBlockEnd then
      guard (connector = .always)
      return []
    let inverted := (← peekWord) = "!"
    if inverted then
      skip 1
      skipBlanks n
    let commands ← pipeline n
    let statement := Statement.mk connector inverted commands
    if ← skipIf "&&" then return statement :: (← statements .ifOk n)
    else if ← skipIf "||" then return statement :: (← statements .ifFailed n)
    else if ← skipIf "&" then
      return .mk .always false [.aside [statement]] :: (← statements .always n)
    else
      let cs ← rest
      guard (cs.isEmpty || cs.head? = some ')' || cs.head? = some ';' || cs.head? = some '\n' ||
        cs.head? = some '#')
      return statement :: (← statements .always n)

/-- The statements from here to the end of a block. -/
def block : Nat → Reading Block
  | 0 => failure
  | n + 1 => statements .always n

end

end Reading

/-- The statements of a script. -/
def Block.ofText? (text : String) : Option Block :=
  let cs := text.toList
  match Reading.block (4 * cs.length + 8) ⟨cs, 1⟩ with
  | some (block, s) => if s.rest.isEmpty then some block else none
  | none => none

end Shell
end Stepwise
